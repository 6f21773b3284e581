import ClusterLedger.Proofs.Mirror
/- The queue's metric of reserved resource. It is raised when a reservation is made and lowered when
   one is given up, but not touched when one is made again, whatever size it then has. -/
namespace ClusterLedger

def Holding.standing (h : Holding) (d : Dimension) : Nat :=
  (h.reserved.map (·.resource.amount d)).sum

namespace World

def reservedOn (w : World) (q : QueueName) (d : Dimension) : Nat :=
  w.sumOn q fun s => (w.holding s).standing d

def FitsReserved (w : World) : Prop := ∀ q d, w.reservedOn q d ≤ d.capacity

def MetricMatches (w : World) : Prop :=
  ∀ q queue, w.queues.get? q = some queue → ∀ d,
    queue.metrics.reserved.amount d = w.reservedOn q d

/-- A reservation that is made again keeps its size. The call counts only where it is honoured:
    the handle is the one that stands at the berth, and no live container has the name. -/
def KeepsSize (w : World) : Call → Prop
  | .reserve a priority n (some r) container =>
    w.running? a container.id = none → w.reservation? a ⟨priority, n⟩ = some r →
      container.resource = (w.record r).reservedResource
  | _ => True

variable {w w' : World} {a : AttemptId} {s s' : Attempt} {postings : Usage → Usage}
  {notes : QueueMetrics → QueueMetrics} {gone come : Holding}

theorem Shift.standing (shift : Shift w w' a s s' gone come) (d : Dimension) :
    gone.standing d ≤ (w.holding s).standing d ∧
    (w'.holding s').standing d =
      (w.holding s).standing d - gone.standing d + come.standing d := by
  obtain ⟨kept, before, after⟩ := shift.change
  have first := (before.reserved.map (·.resource.amount d)).sum_eq
  have second := (after.reserved.map (·.resource.amount d)).sum_eq
  simp only [Holding.also, List.map_append, List.sum_append] at first second
  simp only [Holding.standing]
  omega

theorem Turn.reservedOn (turn : Turn w w' a s s' postings notes)
    (shift : Shift w w' a s s' gone come) (q : QueueName) (d : Dimension) :
    if q = s.queue then gone.standing d ≤ w.reservedOn q d ∧
      w'.reservedOn q d = w.reservedOn q d - gone.standing d + come.standing d
    else w'.reservedOn q d = w.reservedOn q d := by
  obtain ⟨rest, before, after⟩ := turn.sumOn q (fun t => (w.holding t).standing d)
    (fun t => (w'.holding t).standing d) fun apart found => by rw [shift.others apart found]
  have moved := shift.standing d
  simp only [World.reservedOn, before, after]
  split <;> omega

theorem Turn.metricMatches (turn : Turn w w' a s s' postings notes)
    (shift : Shift w w' a s s' gone come) (matching : w.MetricMatches)
    (noted : ∀ m d, gone.standing d ≤ m.reserved.amount d →
      m.reserved.amount d - gone.standing d + come.standing d ≤ d.capacity →
      (notes m).reserved.amount d = m.reserved.amount d - gone.standing d + come.standing d)
    (fits : come = {} ∨ w'.FitsReserved) : w'.MetricMatches := by
  intro q queue found d
  have moved := turn.reservedOn shift q d
  rw [turn.queues] at found
  split at found
  · rename_i same
    obtain ⟨old, was, rfl⟩ := Option.map_eq_some_iff.mp found
    rw [if_pos same] at moved
    have matched := matching s.queue old was d
    rw [← same] at matched
    have bound :
        old.metrics.reserved.amount d - gone.standing d + come.standing d ≤ d.capacity := by
      rcases fits with rfl | fits
      · have within := old.metrics.reserved.amount_le_capacity d
        have nothing : ({} : Holding).standing d = 0 := rfl
        omega
      · have fit := fits q d
        omega
    have result := noted old.metrics d (by omega) bound
    simp only
    omega
  · rename_i apart
    rw [if_neg apart] at moved
    rw [moved]
    exact matching q queue found d

theorem Turn.metricMatches_still (turn : Turn w w' a s s' postings notes)
    (shift : Shift w w' a s s' gone come) (matching : w.MetricMatches)
    (still : ∀ m, (notes m).reserved = m.reserved)
    (same : ∀ d, gone.standing d = come.standing d) (fits : come = {} ∨ w'.FitsReserved) :
    w'.MetricMatches := by
  refine turn.metricMatches shift matching (fun m d within _ => ?_) fits
  rw [still]
  have equal := same d
  omega

theorem Tends.metricMatches (tends : Tends w w') (matching : w.MetricMatches) :
    w'.MetricMatches := by
  intro q queue found d
  have holdings : ∀ t, w'.holding t = w.holding t :=
    holding_kept (fun x => congrArg _ (tends.records x)) fun x => congrArg _ (tends.records x)
  have matched := matching q queue (tends.queues ▸ found) d
  simpa [reservedOn, sumOn, tends.attempts, holdings] using matched

theorem reserves_metricMatches {b node r record} (sound : w.Sound)
    (step : Reserves w w' a s s' b node r record) (matching : w.MetricMatches)
    (fits : w'.FitsReserved) : w'.MetricMatches := by
  refine step.toTurn.metricMatches (sound.shift_reserves step) matching ?_ (.inr fits)
  intro m d _ bound
  have size : ({ reserved := [record.reservedShare] } : Holding).standing d =
      record.reservedResource.amount d := by
    simp [Holding.standing, Record.reservedShare]
  have nothing : ({} : Holding).standing d = 0 := rfl
  rw [QueueMetrics.reserving, Resource.amount_add]
  omega

theorem lapses_metricMatches {b r} (sound : w.Sound) (step : Lapses w w' a s s' b r)
    (matching : w.MetricMatches) : w'.MetricMatches := by
  refine step.toTurn.metricMatches (sound.shift_drops step.toDrops) matching ?_ (.inl rfl)
  intro m d _ _
  have size : ({ reserved := [(w.record r).reservedShare] } : Holding).standing d =
      (w.record r).reservedResource.amount d := by
    simp [Holding.standing, Record.reservedShare]
  have nothing : ({} : Holding).standing d = 0 := rfl
  rw [QueueMetrics.unreserving, Resource.amount_sub]
  omega

theorem Outcome.metricMatches {c : Call} (outcome : Outcome w c w') (sound : w.Sound)
    (matching : w.MetricMatches) (fits : w'.FitsReserved) (keeps : w.KeepsSize c) :
    w'.MetricMatches := by
  cases outcome with
  | begins step =>
    exact step.toTurn.metricMatches_still (sound.shift_begins step) matching (fun _ => rfl)
      (fun _ => rfl) (.inr fits)
  | ends step =>
    exact step.toTurn.metricMatches_still (sound.shift_ends step) matching (fun _ => rfl)
      (fun _ => rfl) (.inr fits)
  | relabels step =>
    exact step.toTurn.metricMatches_still (sound.shift_relabels step) matching (fun _ => rfl)
      (fun _ => rfl) (.inr fits)
  | reserves step => exact reserves_metricMatches sound step matching fits
  | displaces _ first second =>
    exact reserves_metricMatches (sound.lapses first) second
      (lapses_metricMatches sound first matching) fits
  | resizes idFree step =>
    rename_i a b container s s' r partition
    have size := keeps ((step.running?_before _).trans idFree)
      ((step.reservation?_before b).trans step.found)
    refine step.toTurn.metricMatches_still (sound.shift_remakes step.toRemakes) matching (fun _ => rfl) ?_
      (.inr fits)
    intro d
    simp [Holding.standing, Record.reservedShare, size]
  | lapses step => exact lapses_metricMatches sound step matching
  | moves step =>
    exact step.toTurn.metricMatches_still (sound.shift_moves step) matching (fun _ => rfl)
      (fun _ => rfl) (.inr fits)
  | delivers step =>
    exact step.toTurn.metricMatches_still (shift_delivers step) matching (fun _ => rfl)
      (fun _ => rfl) (.inr fits)
  | notes _ _ step =>
    exact step.toTurn.metricMatches_still (shift_notes step) matching (fun _ => rfl)
      (fun _ => rfl) (.inr fits)
  | tends _ step => exact step.metricMatches matching

theorem reserve_resizes (sound : w.Sound) {priority : Priority} {n : NodeId} {r : RecordId}
    {container : Container} (idFree : w.running? a container.id = none)
    (stands : w.reservation? a ⟨priority, n⟩ = some r) :
    ∃ s s' partition, Resizes w (w.perform (.reserve a priority n (some r) container)) a s s'
      ⟨priority, n⟩ r partition container.resource := by
  obtain ⟨s, before, found⟩ := Option.bind_eq_some_iff.mp stands
  obtain ⟨node, offered, _⟩ := Option.bind_eq_some_iff.mp (sound.agree.mpr stands)
  have running : s.isLive container.id = false := by
    simpa [running?, before, Attempt.isLive, Table.contains] using idFree
  obtain ⟨w', s', given, resizes⟩ := reserveAgain_resizes (b := ⟨priority, n⟩) sound before offered
    found container.resource
  have answer : w.tryReserve a priority n (some r) container = (.ok r, w') := by
    simp [tryReserve, reserveOver, before, offered, running, found, given, Except.mapError]
  exact ⟨s, s', node.partition, by simpa [perform, answer] using resizes⟩

theorem Resizes.size_of_metricMatches {b r partition resource} (sound : w.Sound)
    (step : Resizes w w' a s s' b r partition resource) (matching : w.MetricMatches)
    (still : w'.MetricMatches) : resource = (w.record r).reservedResource := by
  refine Resource.eq_of_amount fun d => ?_
  obtain ⟨queue, known⟩ := Option.isSome_iff_exists.mp (sound.queued step.before)
  obtain ⟨queue', after, metrics⟩ : ∃ queue', w'.queues.get? s.queue = some queue' ∧
      queue'.metrics = queue.metrics := by
    rw [step.queues, if_pos rfl, known]
    exact ⟨_, rfl, rfl⟩
  have first := matching s.queue queue known d
  have second := still s.queue queue' after d
  rw [metrics] at second
  have moved := step.toTurn.reservedOn (sound.shift_remakes step.toRemakes) s.queue d
  rw [if_pos rfl] at moved
  simp only [Holding.standing, Record.reservedShare, List.map_cons, List.map_nil,
    List.sum_singleton] at moved
  omega

theorem metricMatches_iff_keepsSize (sound : w.Sound) (matching : w.MetricMatches) (c : Call)
    (fits : (w.perform c).FitsReserved) : (w.perform c).MetricMatches ↔ w.KeepsSize c := by
  constructor
  · intro still
    cases c with
    | reserve a priority n existing container =>
      cases existing with
      | none => trivial
      | some r =>
        intro idFree stands
        obtain ⟨s, s', partition, resizes⟩ := reserve_resizes sound idFree stands
        exact resizes.size_of_metricMatches sound matching still
    | _ => trivial
  · exact (outcome sound c).metricMatches sound matching fits

theorem Opening.metricMatches (opening : w.Opening) : w.MetricMatches := by
  intro q queue found d
  obtain rfl := opening.queues found
  refine (Resource.amount_zero d).trans (List.sum_eq_zero fun x member => ?_).symm
  obtain ⟨s, listed, rfl⟩ := List.mem_map.mp member
  obtain ⟨a, at_⟩ := Table.mem_values.mp (List.mem_filter.mp listed).1
  obtain ⟨_, untouched, _⟩ := opening.attempts at_
  rw [holding_empty untouched.live untouched.reservations]
  rfl

/-- The metric matches the reservations in every state of a run if and only if no reservation is
    made again with another size. -/
theorem metric_matches_iff_sizes_kept {start : World} (opening : start.Opening) {calls : List Call}
    (fits : start.Along (fun w c => (w.perform c).FitsReserved) calls) :
    start.Along (fun w c => (w.perform c).MetricMatches) calls ↔ start.Along KeepsSize calls := by
  have sound := opening.sound
  have matching := opening.metricMatches
  clear opening
  induction calls generalizing start with
  | nil => exact .rfl
  | cons c calls ih =>
    have step := metricMatches_iff_keepsSize sound matching c fits.1
    constructor
    · intro ⟨first, rest⟩
      exact ⟨step.mp first, (ih fits.2 (sound.perform c) first).mp rest⟩
    · intro ⟨first, rest⟩
      exact ⟨step.mpr first, (ih fits.2 (sound.perform c) (step.mpr first)).mpr rest⟩

theorem fitsReserved_of_load (memory : w.load .memory ≤ Dimension.memory.capacity)
    (vcores : w.load .vcores ≤ Dimension.vcores.capacity) : w.FitsReserved := by
  intro q d
  have bounded : w.reservedOn q d ≤ w.load d := by
    refine sumOn_le_load fun s => ?_
    simp [Holding.standing, Holding.whole]
  cases d
  · exact bounded.trans memory
  · exact bounded.trans vcores

theorem metric_matches_iff_sizes_kept_sample :
    sample.Along (fun w c => (w.perform c).MetricMatches) [
      .reserve ⟨"a"⟩ ⟨1⟩ ⟨"n1"⟩ none ⟨⟨"c1"⟩, ⟨"n1"⟩, ⟨4096, 1⟩, ⟨1⟩, false, none⟩,
      .setPartition ⟨"n1"⟩ "x",
      .reserve ⟨"a"⟩ ⟨1⟩ ⟨"n1"⟩ (some ⟨0⟩) ⟨⟨"c1"⟩, ⟨"n1"⟩, ⟨4096, 1⟩, ⟨1⟩, false, none⟩,
      .unreserve ⟨"a"⟩ ⟨1⟩ ⟨"n1"⟩] := by
  refine (metric_matches_iff_sizes_kept sample_opening ?_).mpr ?_
  · refine ⟨?_, ?_, ?_, ?_, trivial⟩ <;> exact fitsReserved_of_load (by decide) (by decide)
  · exact ⟨trivial, trivial, fun _ _ => by decide, trivial, trivial⟩

/-- Made again smaller and then given up, a reservation leaves its difference in the metric for
    good: nothing stands, all sums fit, and the metric is not zero. -/
theorem metric_keeps_difference :
    let calls : List Call := [
      .reserve ⟨"a"⟩ ⟨1⟩ ⟨"n1"⟩ none ⟨⟨"c1"⟩, ⟨"n1"⟩, ⟨4096, 1⟩, ⟨1⟩, false, none⟩,
      .reserve ⟨"a"⟩ ⟨1⟩ ⟨"n1"⟩ (some ⟨0⟩) ⟨⟨"c1"⟩, ⟨"n1"⟩, ⟨1024, 1⟩, ⟨1⟩, false, none⟩,
      .unreserve ⟨"a"⟩ ⟨1⟩ ⟨"n1"⟩]
    sample.Opening ∧ sample.Along (fun w c => (w.perform c).FitsReserved) calls ∧
      ((sample.after calls).attempts.values.map (·.reservations.size)) = [0, 0] ∧
      ((sample.after calls).queues.get? ⟨"q"⟩).map (·.metrics.reserved) = some ⟨3072, 0⟩ ∧
      ¬ (sample.after calls).MetricMatches := by
  intro calls
  have left : ((sample.after calls).queues.get? ⟨"q"⟩).map (·.metrics.reserved) =
      some ⟨3072, 0⟩ := by decide
  refine ⟨sample_opening, ?_, by decide, left, fun matching => ?_⟩
  · refine ⟨?_, ?_, ?_, trivial⟩ <;> exact fitsReserved_of_load (by decide) (by decide)
  · obtain ⟨queue, found, size⟩ := Option.map_eq_some_iff.mp left
    have none : (sample.after calls).reservedOn ⟨"q"⟩ .memory = 0 := by decide
    have matched := matching ⟨"q"⟩ queue found .memory
    rw [size, none] at matched
    exact absurd matched (by decide)

end World
end ClusterLedger
