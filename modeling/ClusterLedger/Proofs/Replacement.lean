import ClusterLedger.Proofs.Seating
import ClusterLedger.Proofs.Mirror
/- Reservations while nodes are replaced by others of the same name. An index goes by names of nodes,
   and what a reservation displaces is told by the slot of the node at hand. Where the two tell
   different things, an entry is overwritten or doubled, and what it counted for stays. -/
namespace ClusterLedger.World

/-- Reservations are on the books once: the reserved figure of an attempt is the sum over its index,
    a queue counts the entries of its attempts, and no index has a node under two priorities. -/
structure BookedOnce (w : World) : Prop where
  figures : ∀ a s, w.attempts.get? a = some s → ∀ p d,
    (s.usage.get .reserved p).amount d = total (w.holding s).reserved p d
  counts : ∀ q queue, w.queues.get? q = some queue →
    queue.metrics.reservedContainers = w.sumOn q (·.reservations.size)
  single : ∀ a b b' r r', w.reservation? a b = some r → w.reservation? a b' = some r' →
    b.node = b'.node → b = b'

def FitsStanding (w : World) : Prop :=
  ∀ a s, w.attempts.get? a = some s → ∀ p d, total (w.holding s).reserved p d ≤ d.capacity

/-- Whatever the index has on the node goes for the reservation that comes there, unless it is that
    very reservation. -/
def Clears (w : World) (a : AttemptId) : Option Deed → Prop
  | some (.reserves b r gone) =>
    ∀ b' x, w.reservation? a b' = some x → b'.node = b.node → (gone = some b' ↔ x ≠ r)
  | _ => True

structure Carries (postings : Usage → Usage) (notes : QueueMetrics → QueueMetrics)
    (gone come : Holding) : Prop where
  figure : ∀ u p d, total gone.reserved p d ≤ (u.get .reserved p).amount d →
    (u.get .reserved p).amount d - total gone.reserved p d + total come.reserved p d ≤ d.capacity →
    ((postings u).get .reserved p).amount d =
      (u.get .reserved p).amount d - total gone.reserved p d + total come.reserved p d
  count : ∀ m, gone.reserved.length ≤ m.reservedContainers → (notes m).reservedContainers =
    m.reservedContainers - gone.reserved.length + come.reserved.length

section Carries
variable {postings : Usage → Usage} {notes : QueueMetrics → QueueMetrics} {gone come : List Share}

theorem carries_live (figure : ∀ u p, (postings u).get .reserved p = u.get .reserved p)
    (count : ∀ m, (notes m).reservedContainers = m.reservedContainers) :
    Carries postings notes { live := gone } { live := come } := by
  refine ⟨fun u p d _ _ => ?_, fun m _ => ?_⟩
  · rw [figure]
    rfl
  · rw [count]
    rfl

theorem carries_increase (x : Share) (notes : QueueMetrics → QueueMetrics)
    (count : ∀ m, (notes m).reservedContainers = m.reservedContainers + 1) :
    Carries (·.increase .reserved x.partition x.resource) notes {} { reserved := [x] } := by
  refine ⟨fun u p d _ bound => ?_, fun m _ => count m⟩
  have nothing : total ({} : Holding).reserved p d = 0 := rfl
  simp only [total_single, Usage.get_increase, true_and, nothing] at bound ⊢
  split
  · rename_i here
    subst here
    simp only [↓reduceIte] at bound
    rw [Resource.amount_add]
    omega
  · omega

theorem carries_decrease (x : Share) (notes : QueueMetrics → QueueMetrics)
    (count : ∀ m, (notes m).reservedContainers = m.reservedContainers - 1) :
    Carries (·.decrease .reserved x.partition x.resource) notes { reserved := [x] } {} := by
  refine ⟨fun u p d _ _ => ?_, fun m _ => count m⟩
  have nothing : total ({} : Holding).reserved p d = 0 := rfl
  simp only [total_single, Usage.get_decrease, true_and, nothing]
  split
  · rename_i here
    subst here
    rw [Resource.amount_sub, Nat.add_zero]
  · omega

theorem carries_exchange (x y : Share) :
    Carries (fun u => (u.decrease .reserved x.partition x.resource).increase .reserved y.partition
      y.resource) id { reserved := [x] } { reserved := [y] } := by
  refine ⟨fun u p d within bound => ?_, fun m one => ?_⟩
  · simp only [total_single, Usage.get_increase, Usage.get_decrease, true_and] at within bound ⊢
    by_cases come : p = y.partition
    · subst come
      by_cases gone : y.partition = x.partition
      · simp only [gone, ↓reduceIte, Resource.amount_add, Resource.amount_sub] at bound ⊢
        omega
      · simp only [gone, ↓reduceIte, Resource.amount_add] at bound ⊢
        omega
    · by_cases gone : p = x.partition
      · subst gone
        simp [come, Resource.amount_sub]
      · simp [come, gone]
  · simp only [List.length_singleton, id_eq] at one ⊢
    omega

end Carries

variable {w m w' : World} {a : AttemptId} {s s' : Attempt} {b : Berth} {r : RecordId}
  {postings : Usage → Usage} {notes : QueueMetrics → QueueMetrics} {gone come : Holding}

theorem Turn.bookedOnce (turn : Turn w w' a s s' postings notes)
    (shift : Shift w w' a s s' gone come) (once : w.BookedOnce)
    (carries : Carries postings notes gone come) (fits : come.reserved = [] ∨ w'.FitsStanding)
    (single : ∀ a b b' r r', w'.reservation? a b = some r → w'.reservation? a b' = some r' →
      b.node = b'.node → b = b') : w'.BookedOnce where
  single := single
  figures := by
    intro x t found p d
    have after : w'.attempts.get? a = some s' := (turn.attempts a).trans (if_pos rfl)
    rw [turn.attempts] at found
    split at found
    · obtain rfl := Option.some.inj found
      have shown := once.figures a s turn.before p d
      obtain ⟨within, moved⟩ := shift.figure .reserved p d
      simp only [Holding.figure] at within moved
      rw [turn.usage, moved, ← shown]
      refine carries.figure s.usage p d (by omega) ?_
      rcases fits with none | fits
      · have held := (s.usage.get .reserved p).amount_le_capacity d
        simp only [none, total, List.filter_nil, List.map_nil, List.sum_nil]
        omega
      · have fit := fits a s' after p d
        omega
    · rename_i apart
      rw [shift.others apart found]
      exact once.figures x t found p d
  counts := by
    intro q queue found
    obtain ⟨rest, before, after⟩ := turn.sumOn q (·.reservations.size) (·.reservations.size)
      fun _ _ => rfl
    rw [turn.queues] at found
    split at found
    · rename_i own
      obtain ⟨old, was, rfl⟩ := Option.map_eq_some_iff.mp found
      have counted := once.counts s.queue old was
      have size := shift.size
      subst own
      simp only [↓reduceIte] at before after
      rw [before] at counted
      rw [carries.count old.metrics (by omega), after]
      omega
    · rename_i apart
      have counted := once.counts q queue found
      simp only [apart, ↓reduceIte] at before after
      omega

theorem Turn.counted (turn : Turn w w' a s s' postings notes) (coherent : w.Coherent)
    (before : w.BookedOnce) (after : w'.BookedOnce) : ∃ m : QueueMetrics,
      s.reservations.size ≤ m.reservedContainers ∧
      (notes m).reservedContainers + s.reservations.size =
        m.reservedContainers + s'.reservations.size := by
  obtain ⟨queue, known⟩ := Option.isSome_iff_exists.mp (coherent.queued turn.before)
  obtain ⟨rest, first, second⟩ := turn.sumOn s.queue (·.reservations.size) (·.reservations.size)
    fun _ _ => rfl
  have counted := before.counts s.queue queue known
  have recounted := after.counts s.queue _
    ((turn.queues s.queue).trans (by rw [if_pos rfl, known]; rfl))
  simp only [↓reduceIte] at first second recounted
  exact ⟨queue.metrics, by omega, by omega⟩

theorem reservation?_after (turn : Turn w w' a s s' postings notes) (b : Berth) :
    w'.reservation? a b = s'.reservations.get? b :=
  (turn.reservation? a b).trans (if_pos rfl)

theorem Turn.single_within (turn : Turn w w' a s s' postings notes) (once : w.BookedOnce)
    (within : ∀ b r, s'.reservations.get? b = some r → (s.reservations.get? b).isSome) :
    ∀ a b b' r r', w'.reservation? a b = some r → w'.reservation? a b' = some r' →
      b.node = b'.node → b = b' := by
  have known : ∀ x b r, w'.reservation? x b = some r → ∃ y, w.reservation? x b = some y := by
    intro x b r found
    rw [turn.reservation?] at found
    split at found
    · rename_i same
      subst same
      obtain ⟨y, there⟩ := Option.isSome_iff_exists.mp (within b r found)
      exact ⟨y, (turn.reservation?_before b).trans there⟩
    · exact ⟨r, found⟩
  intro x b b' r r' one other near
  obtain ⟨y, one⟩ := known x b r one
  obtain ⟨y', other⟩ := known x b' r' other
  exact once.single x b b' y y' one other near

theorem Turn.single_insert (turn : Turn w w' a s s' postings notes) (once : w.BookedOnce)
    (free : ∀ b' x, w.reservation? a b' = some x → b'.node ≠ b.node)
    (index : ∀ b' x, s'.reservations.get? b' = some x → b' = b ∨ s.reservations.get? b' = some x) :
    ∀ a b b' r r', w'.reservation? a b = some r → w'.reservation? a b' = some r' →
      b.node = b'.node → b = b' := by
  intro x b₁ b₂ r₁ r₂ one other near
  rw [turn.reservation?] at one other
  split at one
  · rename_i same
    subst same
    simp only [↓reduceIte] at other
    rcases index b₁ r₁ one with rfl | old₁ <;> rcases index b₂ r₂ other with rfl | old₂
    · rfl
    · exact absurd near.symm (free b₂ r₂ ((turn.reservation?_before b₂).trans old₂))
    · exact absurd near (free b₁ r₁ ((turn.reservation?_before b₁).trans old₁))
    · exact once.single x b₁ b₂ r₁ r₂ ((turn.reservation?_before b₁).trans old₁)
        ((turn.reservation?_before b₂).trans old₂) near
  · rename_i apart
    rw [if_neg apart] at other
    exact once.single x b₁ b₂ r₁ r₂ one other near

theorem enter_reserved (u : Usage) (p x : Partition) (record : Record) :
    (u.enter p record).get .reserved x = u.get .reserved x := by
  unfold Usage.enter
  split <;> simp [Usage.get_increase]

theorem leave_reserved (u : Usage) (p x : Partition) (record : Record) :
    (u.leave p record).get .reserved x = u.get .reserved x := by
  unfold Usage.leave
  split <;> simp [Usage.get_decrease]

theorem cross_reserved (u : Usage) (old new x : Partition) (record : Record) :
    (u.cross old new record).get .reserved x = u.get .reserved x := by
  unfold Usage.cross
  split <;> simp [Usage.get_increase, Usage.get_decrease]

namespace BookedOnce

theorem single_same (once : w.BookedOnce) (turn : Turn w w' a s s' postings notes)
    (same : s'.reservations = s.reservations) :
    ∀ a b b' r r', w'.reservation? a b = some r → w'.reservation? a b' = some r' →
      b.node = b'.node → b = b' :=
  turn.single_within once fun _ r found => Option.isSome_iff_exists.mpr ⟨r, same ▸ found⟩

theorem beside (once : w.BookedOnce) {live live' : List Share}
    (turn : Turn w w' a s s' postings notes)
    (shift : Shift w w' a s s' { live := live } { live := live' })
    (same : s'.reservations = s.reservations)
    (figure : ∀ u p, (postings u).get .reserved p = u.get .reserved p)
    (count : ∀ m, (notes m).reservedContainers = m.reservedContainers) : w'.BookedOnce :=
  turn.bookedOnce shift once (carries_live figure count) (.inl rfl) (once.single_same turn same)

theorem kept (once : w.BookedOnce) (attempts : w'.attempts = w.attempts)
    (queues : w'.queues = w.queues) (records : ∀ x, w'.record x = w.record x) : w'.BookedOnce where
  figures := by
    intro x t found p d
    rw [holding_kept (fun x => congrArg _ (records x)) fun x => congrArg _ (records x)]
    exact once.figures x t (attempts ▸ found) p d
  counts := by
    intro q queue found
    have counted := once.counts q queue (queues ▸ found)
    simpa [sumOn, attempts] using counted
  single := by
    simpa [reservation?, attempts] using once.single

theorem drops (once : w.BookedOnce) (coherent : w.Coherent) (step : Drops w w' a s s' b r) :
    w'.BookedOnce := by
  refine step.toTurn.bookedOnce (coherent.shift_drops step) once
    (carries_decrease (w.record r).reservedShare _ fun _ => rfl) (.inl rfl)
    (step.toTurn.single_within once fun b' x found => ?_)
  rw [step.reservations, Table.lookup_erase] at found
  split at found
  · simp at found
  · exact Option.isSome_iff_exists.mpr ⟨x, found⟩

theorem enlists {record : Record} (once : w.BookedOnce) (coherent : w.Coherent)
    (step : Enlists w w' a s s' b r record)
    (free : ∀ b' x, w.reservation? a b' = some x → b'.node ≠ b.node) (fits : w'.FitsStanding) :
    w'.BookedOnce := by
  have vacant : s.reservations.get? b = none :=
    Option.eq_none_iff_forall_ne_some.mpr fun x found =>
      free b x ((step.reservation?_before b).trans found) rfl
  refine step.toTurn.bookedOnce (coherent.shift_enlists vacant step) once
    (carries_increase record.reservedShare _ fun _ => rfl) (.inr fits)
    (step.toTurn.single_insert once free fun b' x found => ?_)
  rw [step.reservations, Table.lookup_insert] at found
  split at found
  · rename_i here
    exact .inl here
  · exact .inr found

theorem remakes {partition resource} (once : w.BookedOnce) (coherent : w.Coherent)
    (step : Remakes w w' a s s' b r partition resource) (fits : w'.FitsStanding) : w'.BookedOnce :=
  step.toTurn.bookedOnce (coherent.shift_remakes step) once
    (carries_exchange (w.record r).reservedShare ⟨partition, resource, (w.record r).isMaster⟩)
    (.inr fits) (once.single_same step.toTurn step.reservations)

theorem reseats {target : NodeId} (once : w.BookedOnce) (coherent : w.Coherent)
    (step : Reseats w w' a s s' b target r)
    (free : ∀ b' x, w.reservation? a b' = some x → b'.node ≠ target) : w'.BookedOnce := by
  have vacant : s.reservations.get? ⟨b.priority, target⟩ = none :=
    Option.eq_none_iff_forall_ne_some.mpr fun x found =>
      free _ x ((step.reservation?_before _).trans found) rfl
  refine step.toTurn.bookedOnce (coherent.shift_reseats vacant step) once
    (carries_live (fun _ _ => rfl) fun _ => rfl) (.inl rfl)
    (step.toTurn.single_insert (b := ⟨b.priority, target⟩) once free fun b' x found => ?_)
  rw [step.reservations, Table.lookup_insert, Table.lookup_erase] at found
  split at found
  · rename_i here
    exact .inl here
  · split at found
    · simp at found
    · exact .inr found

theorem elsewhere (once : w.BookedOnce) (coherent : w.Coherent) {c : Call}
    (reserves : ∀ a priority n existing container, c ≠ .reserve a priority n existing container)
    (moves : ∀ a r source target, c ≠ .move a r source target) : (w.perform c).BookedOnce := by
  cases outcome_elsewhere coherent reserves moves with
  | begins step =>
    exact once.beside step.toTurn (coherent.shift_begins step) step.reservations
      (fun _ _ => enter_reserved _ _ _ _) fun _ => rfl
  | ends step =>
    exact once.beside step.toTurn (coherent.shift_ends step) step.reservations
      (fun _ _ => leave_reserved _ _ _ _) fun _ => rfl
  | relabels step =>
    exact once.beside step.toTurn (coherent.shift_relabels step) step.reservations
      (fun _ _ => cross_reserved _ _ _ _ _) fun _ => rfl
  | reserves => exact absurd rfl (reserves _ _ _ _ _)
  | displaces => exact absurd rfl (reserves _ _ _ _ _)
  | resizes => exact absurd rfl (reserves _ _ _ _ _)
  | lapses step => exact once.drops coherent step.toDrops
  | moves => exact absurd rfl (moves _ _ _ _)
  | delivers step =>
    exact once.beside step.toTurn (shift_delivers step) step.reservations (fun _ _ => rfl)
      fun _ => rfl
  | notes _ _ step =>
    exact once.beside step.toTurn (shift_notes step) step.reservations (fun _ _ => rfl)
      fun _ => rfl
  | tends _ step => exact once.kept step.attempts step.queues step.records

end BookedOnce

def Crowded (w : World) (a : AttemptId) (n : NodeId) : Prop :=
  ∃ b x, w.reservation? a b = some x ∧ b.node = n

/-- A node that was in the index and comes again is overwritten there, or doubled. -/
theorem Enlists.crowds {record : Record} (step : Enlists w w' a s s' b r record)
    (coherent : w.Coherent) (once : w.BookedOnce) (crowded : w.Crowded a b.node) :
    ¬ w'.BookedOnce := by
  intro after
  obtain ⟨b', x, found, near⟩ := crowded
  have there := (step.reservation?_before b').symm.trans found
  by_cases same : b' = b
  · subst same
    obtain ⟨m, _, counted⟩ := step.toTurn.counted coherent once after
    have size := Table.size_insert s.reservations b' r
    have left := Table.size_erase there
    rw [step.reservations] at counted
    simp only [QueueMetrics.reserving] at counted
    omega
  · have new := reservation?_after step.toTurn b
    have old := reservation?_after step.toTurn b'
    rw [step.reservations, Table.lookup_insert, if_pos rfl] at new
    rw [step.reservations, Table.lookup_insert, if_neg same, there] at old
    exact same (after.single a b' b x r old new near)

theorem Reseats.crowds {target : NodeId} (step : Reseats w w' a s s' b target r)
    (coherent : w.Coherent) (once : w.BookedOnce) (apart : b.node ≠ target)
    (crowded : w.Crowded a target) : ¬ w'.BookedOnce := by
  intro after
  obtain ⟨b', x, found, near⟩ := crowded
  have there := (step.reservation?_before b').symm.trans found
  have other : b' ≠ b := by
    rintro rfl
    exact apart near
  have kept : (s.reservations.erase b).get? b' = some x := by
    rw [Table.lookup_erase, if_neg other, there]
  by_cases same : b' = ⟨b.priority, target⟩
  · subst same
    obtain ⟨m, _, counted⟩ := step.toTurn.counted coherent once after
    have size := Table.size_insert (s.reservations.erase b) ⟨b.priority, target⟩ r
    have left := Table.size_erase kept
    have first := Table.size_erase step.found
    rw [step.reservations] at counted
    simp only [id_eq] at counted
    omega
  · have new := reservation?_after step.toTurn ⟨b.priority, target⟩
    have old := reservation?_after step.toTurn b'
    rw [step.reservations, Table.lookup_insert, if_pos rfl] at new
    rw [step.reservations, Table.lookup_insert, if_neg same, kept] at old
    exact same (after.single a b' _ x r old new near)

theorem Doubles.crowds {partition resource} (step : Doubles w w' a s s' b r partition resource)
    (coherent : w.Coherent) (once : w.BookedOnce) : ¬ w'.BookedOnce := by
  intro after
  obtain ⟨m, within, counted⟩ := step.toTurn.counted coherent once after
  have left := Table.size_erase step.found
  rw [step.reservations] at counted
  simp only [QueueMetrics.unreserving] at counted
  omega

theorem Seating.bookedOnce_iff {gone : Option Berth} (seating : Seating w w' a b r gone)
    (coherent : w.Coherent) (once : w.BookedOnce) (fits : w'.FitsStanding) :
    w'.BookedOnce ↔ w.Clears a (some (.reserves b r gone)) := by
  cases seating with
  | enlists absent step =>
    have new : ∀ b' x, w.reservation? a b' = some x → x ≠ r := by
      rintro b' x found rfl
      exact (coherent.unlisted step.fresh).1 a b' found
    have staying : ∀ b' x, w.reservation? a b' = some x → gone ≠ some b' := by
      intro b' x found left
      have none := absent b' left
      rw [← step.reservation?_before, found] at none
      simp at none
    constructor
    · intro after b' x found near
      exact absurd after (step.crowds coherent once ⟨b', x, found, near⟩)
    · intro clears
      refine once.enlists coherent step (fun b' x found near => ?_) fits
      exact staying b' x found ((clears b' x found near).mpr (new b' x found))
  | replaces left near first second =>
    rename_i m s s' s'' b' y record
    have there := (first.reservation?_before b').trans first.found
    have knows : ¬ w.Knows r := fun known => second.fresh ((first.knows r).mpr known)
    refine ⟨fun _ b₁ x found close => ⟨fun _ => ?_, fun _ => ?_⟩, fun _ => ?_⟩
    · rintro rfl
      exact (coherent.unlisted knows).1 a b₁ found
    · rw [left, once.single a b' b₁ y x there found (near.trans close.symm)]
    · refine (once.drops coherent first).enlists (coherent.drops first) second
        (fun b₁ x found close => ?_) fits
      rw [first.reservation?, if_pos rfl, first.reservations, Table.lookup_erase] at found
      split at found
      · simp at found
      · rename_i other
        exact other (once.single a b₁ b' x y ((first.reservation?_before b₁).trans found) there
          (close.trans near.symm))
  | remakes absent step =>
    have there := (step.reservation?_before b).trans step.found
    refine ⟨fun _ b' x found near => ?_, fun _ => once.remakes coherent step fits⟩
    obtain rfl := once.single a b' b x r found there near
    obtain rfl : x = r := Option.some.inj (found.symm.trans there)
    refine ⟨fun left => ?_, fun other => absurd rfl other⟩
    have none := absent b' left
    rw [step.found] at none
    simp at none
  | remakesBeside near other first second =>
    rename_i m s s' s'' b' y partition resource
    have there := (first.reservation?_before b').trans first.found
    have stood : s.reservations.get? b = some r := by
      have found := second.found
      rwa [first.reservations, Table.lookup_erase, if_neg (Ne.symm other)] at found
    exact absurd (once.single a b' b y r there ((first.reservation?_before b).trans stood) near)
      other
  | doubles left step =>
    have there := (step.reservation?_before b).trans step.found
    refine ⟨fun after => absurd after (step.crowds coherent once), fun clears => ?_⟩
    exact absurd rfl ((clears b r there rfl).mp left)

theorem Reseats.bookedOnce_iff {target : NodeId} (step : Reseats w w' a s s' b target r)
    (coherent : w.Coherent) (once : w.BookedOnce) (apart : b.node ≠ target) :
    w'.BookedOnce ↔ w.Clears a (some (.reserves ⟨b.priority, target⟩ r (some b))) := by
  have there := (step.reservation?_before b).trans step.found
  constructor
  · intro after b' x found near
    exact absurd after (step.crowds coherent once apart ⟨b', x, found, near⟩)
  · intro clears
    refine once.reseats coherent step fun b' x found near => ?_
    have other : x ≠ r := by
      rintro rfl
      obtain ⟨_, rfl⟩ := coherent.berth_unique found there
      exact apart near
    obtain rfl := Option.some.inj ((clears b' x found near).mpr other)
    exact apart near

theorem clears_told {deeds : AttemptId → Option Deed} {d : Option Deed}
    (told : ∀ x, deeds x = if a = x then d else none) :
    (∀ x, w.Clears x (deeds x)) ↔ w.Clears a d := by
  constructor
  · intro clears
    have own := clears a
    rwa [told, if_pos rfl] at own
  · intro clears x
    rw [told]
    split
    · rename_i same
      exact same ▸ clears
    · trivial

theorem clears_elsewhere {c : Call}
    (reserves : ∀ a priority n existing container, c ≠ .reserve a priority n existing container)
    (moves : ∀ a r source target, c ≠ .move a r source target) (a : AttemptId) :
    w.Clears a (w.deedOf a c) := by
  cases c with
  | reserve => exact absurd rfl (reserves _ _ _ _ _)
  | move => exact absurd rfl (moves _ _ _ _)
  | allocate | complete | mark | snapshot | unreserve =>
    simp only [deedOf]
    split <;> trivial
  | _ => trivial

theorem bookedOnce_iff_clears (coherent : w.Coherent) (filed : w.Filed) (once : w.BookedOnce)
    (e : Event) (fits : (w.undergo e).FitsStanding) :
    (w.undergo e).BookedOnce ↔ ∀ a, w.Clears a (w.deed a e) := by
  cases e with
  | refit nodes => exact ⟨fun _ _ => trivial, fun _ => once.kept rfl rfl fun _ => rfl⟩
  | call c =>
    simp only [undergo, deed] at fits ⊢
    cases c with
    | reserve x priority n existing container =>
      cases answer : w.reserve x priority n existing container with
      | error e =>
        simp only [perform_refused answer, deedOf, answer, ite_self]
        exact ⟨fun _ _ => trivial, fun _ => once⟩
      | ok result =>
        obtain ⟨r, w'⟩ := result
        simp only [perform_reserved answer, deedOf, answer] at fits ⊢
        rw [clears_told fun _ => rfl]
        exact (reserve_seating coherent filed answer).bookedOnce_iff coherent once fits
    | move x r source target =>
      rcases move_reseating coherent filed x r source target with
        same | ⟨w', s, s', priority, moved, placed, apart, step, _⟩
      · simp only [perform, deedOf, same, Bool.false_eq_true, and_false, ↓reduceIte]
        exact ⟨fun _ _ => trivial, fun _ => once⟩
      · simp only [perform, deedOf, moved, placed, Option.map_some, and_true] at fits ⊢
        rw [clears_told fun _ => rfl]
        exact step.bookedOnce_iff coherent once apart
    | _ =>
      refine ⟨fun _ => clears_elsewhere ?_ ?_, fun _ => once.elsewhere coherent ?_ ?_⟩ <;> simp

theorem Opening.bookedOnce (opening : w.Opening) : w.BookedOnce where
  figures := by
    intro a s found p d
    obtain ⟨s₀, _, shows⟩ := opening.balanced a s found
    have shown := shows .reserved p d
    simpa [due, Tally.single, Holding.figure] using shown
  counts q queue found := (opening.mirrored q queue found).reservations
  single := by
    intro a b b' r r' found
    have held := opening.sound.agree.mpr found
    obtain ⟨node, offered, slot⟩ := Option.bind_eq_some_iff.mp held
    simp [(opening.nodes offered).2] at slot

/-- Whatever nodes come and go between calls, reservations are on the books exactly once in every
    state of a run if and only if every reservation of the run clears its node: what the index has
    there is the reservation itself, or what the slot at hand gives up for it. -/
theorem bookedOnce_iff_cleared {start : World} (opening : start.Opening) {events : List Event}
    (fits : start.Throughout (fun w e => (w.undergo e).FitsStanding) events) :
    start.Throughout (fun w e => (w.undergo e).BookedOnce) events ↔
      start.Throughout (fun w e => ∀ a, w.Clears a (w.deed a e)) events := by
  have coherent := opening.sound.toCoherent
  have filed := opening.filed
  have once := opening.bookedOnce
  clear opening
  induction events generalizing start with
  | nil => exact .rfl
  | cons e events ih =>
    have step := bookedOnce_iff_clears coherent filed once e fits.1
    have next := ih fits.2 (coherent.undergo filed e) (filed.follows (passage filed e).follows)
    constructor
    · intro ⟨first, rest⟩
      exact ⟨step.mp first, (next first).mp rest⟩
    · intro ⟨first, rest⟩
      exact ⟨step.mpr first, (next (step.mpr first)).mpr rest⟩

theorem Fits.standing (fits : w.Fits) : w.FitsStanding :=
  fun a s found p d => fits a s found .reserved p d

theorem clears_of_vacant (vacant : ∀ s ∈ w.attempts.values, s.reservations.values = [])
    (a : AttemptId) (d : Option Deed) : w.Clears a d := by
  match d with
  | some (.reserves b r gone) =>
    intro b' x found
    obtain ⟨s, at_, there⟩ := Option.bind_eq_some_iff.mp found
    have listed := Table.mem_values.mpr ⟨b', there⟩
    simp [vacant s (Table.mem_values.mpr ⟨a, at_⟩)] at listed
  | none => trivial
  | some (.begins _) => trivial
  | some (.ends _) => trivial
  | some (.marks _) => trivial
  | some .delivers => trivial
  | some (.frees _) => trivial

/-- A reservation is given up after its node was replaced, and the new node is reserved at another
    priority. -/
theorem bookedOnce_iff_cleared_sample :
    sample.Throughout (fun w e => (w.undergo e).BookedOnce) [
      .call (.reserve ⟨"a"⟩ ⟨1⟩ ⟨"n1"⟩ none ⟨⟨"c1"⟩, ⟨"n1"⟩, ⟨4096, 1⟩, ⟨1⟩, false, none⟩),
      .refit [{ id := ⟨"n1"⟩, rack := "r", partition := "x", total := ⟨8192, 8⟩ }],
      .call (.unreserve ⟨"a"⟩ ⟨1⟩ ⟨"n1"⟩),
      .call (.reserve ⟨"a"⟩ ⟨2⟩ ⟨"n1"⟩ none ⟨⟨"c2"⟩, ⟨"n1"⟩, ⟨2048, 1⟩, ⟨2⟩, false, none⟩)] := by
  refine (bookedOnce_iff_cleared sample_opening ?_).mpr ⟨?_, ?_, ?_, ?_, trivial⟩
  · refine ⟨?_, ?_, ?_, ?_, trivial⟩ <;>
      exact (fitsOnQueues_of_load (by decide) (by decide)).fits.standing
  · exact fun a => clears_of_vacant (by decide) a _
  · exact fun a => trivial
  · intro a
    simp only [deed, deedOf]
    split <;> trivial
  · exact fun a => clears_of_vacant (by decide) a _

/-- A node is replaced and reserved again at the same priority: the entry of the first reservation is
    overwritten, and its resource and its count stay. -/
theorem replaced_node_counts_twice :
    let events : List Event := [
      .call (.reserve ⟨"a"⟩ ⟨1⟩ ⟨"n1"⟩ none ⟨⟨"c1"⟩, ⟨"n1"⟩, ⟨4096, 1⟩, ⟨1⟩, false, none⟩),
      .refit [{ id := ⟨"n1"⟩, rack := "r", partition := "", total := ⟨8192, 8⟩ }],
      .call (.reserve ⟨"a"⟩ ⟨1⟩ ⟨"n1"⟩ none ⟨⟨"c2"⟩, ⟨"n1"⟩, ⟨2048, 1⟩, ⟨1⟩, false, none⟩)]
    let w := sample.through events
    sample.Opening ∧ sample.Throughout (fun w e => (w.undergo e).FitsStanding) events ∧
      w.attempts.values.map (·.reservations.size) = [1, 0] ∧
      w.reservation? ⟨"a"⟩ ⟨⟨1⟩, ⟨"n1"⟩⟩ = some ⟨1⟩ ∧
      (w.record ⟨1⟩).reservedResource = ⟨2048, 1⟩ ∧
      (w.attempts.get? ⟨"a"⟩).map (·.usage.get .reserved "") = some ⟨6144, 2⟩ ∧
      (w.queues.get? ⟨"q"⟩).map (·.metrics.reservedContainers) = some 2 ∧ ¬ w.BookedOnce := by
  intro events w
  have counted : (w.queues.get? ⟨"q"⟩).map (·.metrics.reservedContainers) = some 2 := by decide
  refine ⟨sample_opening, ?_, by decide, by decide, by decide, by decide, counted, fun once => ?_⟩
  · refine ⟨?_, ?_, ?_, trivial⟩ <;>
      exact (fitsOnQueues_of_load (by decide) (by decide)).fits.standing
  · obtain ⟨queue, found, count⟩ := Option.map_eq_some_iff.mp counted
    have one : w.sumOn ⟨"q"⟩ (·.reservations.size) = 1 := by decide
    have counts := once.counts ⟨"q"⟩ queue found
    omega

end ClusterLedger.World
