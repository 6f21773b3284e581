import ClusterLedger.Proofs.Slots
import ClusterLedger.Proofs.Holding
/- How each call is booked: the postings that it makes are what its attempt loses and gains. -/
namespace ClusterLedger

theorem Posts.of_eq {change : Usage → Usage} {out inn out' inn' : Tally}
    (posts : Posts change out inn) (same : ∀ g x d, out g x d = out' g x d)
    (same' : ∀ g x d, inn g x d = inn' g x d) : Posts change out' inn' := by
  obtain rfl : out = out' := by
    funext g x d
    exact same g x d
  obtain rfl : inn = inn' := by
    funext g x d
    exact same' g x d
  exact posts

/-- Figures stay exact when what goes was there and what results fits. Taking off alone always
    fits. -/
theorem Posts.shows {change : Usage → Usage} {gone come : Holding}
    (posts : Posts change gone.figure come.figure) {u : Usage} {t t' : Tally} (shows : u.Shows t)
    (moved : ∀ g x d, t' g x d = t g x d - gone.figure g x d + come.figure g x d)
    (fits : come = {} ∨ ∀ g x d, t' g x d ≤ d.capacity) : (change u).Shows t' := by
  have same : t' = fun g x d => t g x d - gone.figure g x d + come.figure g x d := by
    funext g x d
    exact moved g x d
  rw [same]
  refine posts u t shows fun g x d => ?_
  rcases fits with rfl | fits
  · have within := (u.get g x).amount_le_capacity d
    have now := shows g x d
    simp only [Holding.figure_nothing]
    omega
  · have fit := fits g x d
    rw [moved] at fit
    exact fit

theorem posts_enter (r : Record) :
    Posts (·.enter r.partition r) ({} : Holding).figure
      ({ live := [r.liveShare] } : Holding).figure := by
  have used := posts_increase .used r.partition r.resource
  by_cases master : r.isMaster
  · have both := used.after (posts_increase .amUsed r.partition r.resource) fun _ _ _ => .inr rfl
    simp only [Usage.enter, master, ↓reduceIte]
    refine both.of_eq ?_ ?_
    · simp
    · intro g x d
      rw [Holding.figure_live]
      simp [Record.liveShare, master]
  · simp only [Usage.enter, master]
    refine used.of_eq ?_ ?_
    · simp
    · intro g x d
      rw [Holding.figure_live]
      simp [Record.liveShare, master]

theorem posts_leave {r : Record} {p : Partition} (own : p = r.partition ∨ r.resource = .zero) :
    Posts (·.leave p r) ({ live := [r.liveShare] } : Holding).figure ({} : Holding).figure := by
  have counted : ∀ f g x d, Tally.single f p r.resource g x d =
      Tally.single f r.liveShare.partition r.liveShare.resource g x d := by
    intro f g x d
    rcases own with rfl | nothing
    · rfl
    · simp [Tally.single, Record.liveShare, nothing]
  have used := posts_decrease .used p r.resource
  by_cases master : r.isMaster
  · have both := used.after (posts_decrease .amUsed p r.resource) fun _ _ _ => .inl rfl
    simp only [Usage.leave, master, ↓reduceIte]
    refine both.of_eq ?_ ?_
    · intro g x d
      rw [Holding.figure_live, counted, counted]
      simp [Record.liveShare, master]
    · simp
  · simp only [Usage.leave, master]
    refine used.of_eq ?_ ?_
    · intro g x d
      rw [Holding.figure_live, counted]
      simp [Record.liveShare, master]
    · simp

theorem posts_cross (g : Figure) (old new : Partition) (r r' : Resource) :
    Posts (fun u => (u.decrease g old r).increase g new r') (.single g old r) (.single g new r') :=
  ((posts_decrease g old r).after (posts_increase g new r') fun _ _ _ => .inl rfl).of_eq
    (fun _ _ _ => rfl) fun _ _ _ => Nat.zero_add _

theorem posts_relabel (r : Record) (new : Partition) :
    Posts (·.cross r.partition new r) ({ live := [r.liveShare] } : Holding).figure
      ({ live := [{ r.liveShare with partition := new }] } : Holding).figure := by
  have used := posts_cross .used r.partition new r.resource r.resource
  by_cases master : r.isMaster
  · have both := used.after (posts_cross .amUsed r.partition new r.resource r.resource) (by
      intro g x d
      simp only [Tally.single]
      grind)
    simp only [Usage.cross, master, ↓reduceIte]
    refine both.of_eq ?_ ?_ <;>
      · intro g x d
        rw [Holding.figure_live]
        simp [Record.liveShare, master]
  · simp only [Usage.cross, master]
    refine used.of_eq ?_ ?_ <;>
      · intro g x d
        rw [Holding.figure_live]
        simp [Record.liveShare, master]

namespace World

def NamesPartition (w : World) : Call → Prop
  | .complete a c _ _ partition => ∀ r, w.running? a c = some r → partition = (w.record r).partition
  | _ => True

/-- A completion takes the container off where it is counted, or the container counts for nothing. -/
def ReleasesOwn (w : World) : Call → Prop
  | .complete a c _ _ partition => ∀ r, w.running? a c = some r →
    partition = (w.record r).partition ∨ (w.record r).resource = .zero
  | _ => True

theorem NamesPartition.own {w : World} {c : Call} (names : w.NamesPartition c) : w.ReleasesOwn c := by
  cases c with
  | complete a c report ending partition => exact fun r found => .inl (names r found)
  | _ => trivial

/-- One attempt's holding changes, and the figures and counters take the same change. -/
structure Entry (w w' : World) (a : AttemptId) (s s' : Attempt) (postings : Usage → Usage)
    (notes : QueueMetrics → QueueMetrics) (gone come : Holding) (given : Option Resource) : Prop
    extends Turn w w' a s s' postings notes, Shift w w' a s s' gone come where
  posts : Posts postings gone.figure come.figure
  reservations : ∀ m, gone.reserved.length ≤ m.reservedContainers → (notes m).reservedContainers =
    m.reservedContainers - gone.reserved.length + come.reserved.length
  releases : ∀ m, (notes m).releasedContainers = m.releasedContainers + given.toList.length
  released : ∀ m, (notes m).released = given.elim m.released (m.released + ·)

/-- A call makes one entry, or two where the first only takes away, or none. -/
inductive Booked (w : World) (c : Call) (w' : World) : Prop
  | once {a s s' postings notes gone come given} :
    Entry w w' a s s' postings notes gone come given → w.givesBack c = given.map (s.queue, ·) →
      Booked w c w'
  | twice {m a s s' s'' postings postings' notes notes' gone come} :
    Entry w m a s s' postings notes gone {} none →
      Entry m w' a s' s'' postings' notes' {} come none → w.givesBack c = none → Booked w c w'
  | never : Tends w w' → w.givesBack c = none → Booked w c w'

variable {w w' : World} {a : AttemptId} {s s' : Attempt} {r : RecordId}

theorem posts_stay : Posts id ({} : Holding).figure ({} : Holding).figure :=
  posts_nothing.of_eq (fun _ _ _ => (Holding.figure_nothing _ _ _).symm)
    fun _ _ _ => (Holding.figure_nothing _ _ _).symm

theorem entry_quiet (turn : Turn w w' a s s' id id) (shift : Shift w w' a s s' {} {}) :
    Entry w w' a s s' id id {} {} none :=
  ⟨turn, shift, posts_stay, fun _ _ => rfl, fun _ => rfl, fun _ => rfl⟩

theorem entry_begins {record} (sound : w.Sound) (step : Begins w w' a s s' r record) :
    Entry w w' a s s' (·.enter record.partition record) id {} { live := [record.liveShare] } none :=
  ⟨step.toTurn, sound.shift_begins step, posts_enter record, fun _ _ => rfl, fun _ => rfl,
    fun _ => rfl⟩

theorem entry_ends {c partition report ending} (sound : w.Sound)
    (step : Ends w w' a s s' c r partition report ending)
    (own : partition = (w.record r).partition ∨ (w.record r).resource = .zero) :
    Entry w w' a s s' (·.leave partition (w.record r)) (.releasing (w.record r).resource)
      { live := [(w.record r).liveShare] } {} (some (w.record r).resource) :=
  ⟨step.toTurn, sound.shift_ends step, posts_leave own, fun _ _ => rfl, fun _ => rfl,
    fun _ => rfl⟩

theorem entry_relabels {c new} (sound : w.Sound) (step : Relabels w w' a s s' c r new) :
    Entry w w' a s s' (·.cross (w.record r).partition new (w.record r)) id
      { live := [(w.record r).liveShare] }
      { live := [{ (w.record r).liveShare with partition := new }] } none :=
  ⟨step.toTurn, sound.shift_relabels step, posts_relabel (w.record r) new, fun _ _ => rfl,
    fun _ => rfl, fun _ => rfl⟩

theorem entry_reserves {b node record} (sound : w.Sound)
    (step : Reserves w w' a s s' b node r record) :
    Entry w w' a s s' (·.increase .reserved record.partition record.reservedResource)
      (.reserving record.reservedResource) {} { reserved := [record.reservedShare] } none := by
  refine ⟨step.toTurn, sound.shift_reserves step, ?_, fun _ _ => rfl, fun _ => rfl, fun _ => rfl⟩
  refine (posts_increase .reserved record.partition record.reservedResource).of_eq ?_ ?_
  · simp
  · exact fun g x d => (Holding.figure_reserved record.reservedShare g x d).symm

theorem entry_lapses {b} (sound : w.Sound) (step : Lapses w w' a s s' b r) :
    Entry w w' a s s'
      (·.decrease .reserved (w.record r).partition (w.record r).reservedResource)
      (.unreserving (w.record r).reservedResource)
      { reserved := [(w.record r).reservedShare] } {} none := by
  refine ⟨step.toTurn, sound.shift_drops step.toDrops, ?_, fun _ _ => rfl, fun _ => rfl, fun _ => rfl⟩
  refine (posts_decrease .reserved (w.record r).partition (w.record r).reservedResource).of_eq ?_ ?_
  · exact fun g x d => (Holding.figure_reserved (w.record r).reservedShare g x d).symm
  · simp

theorem entry_resizes {b partition resource} (sound : w.Sound)
    (step : Resizes w w' a s s' b r partition resource) :
    ∃ postings, Entry w w' a s s' postings id { reserved := [(w.record r).reservedShare] }
      { reserved := [⟨partition, resource, (w.record r).isMaster⟩] } none := by
  refine ⟨_, step.toTurn, sound.shift_remakes step.toRemakes, ?_, fun m some => ?_, fun _ => rfl,
    fun _ => rfl⟩
  · refine (posts_cross .reserved (w.record r).partition partition (w.record r).reservedResource
      resource).of_eq ?_ ?_
    · exact fun g x d => (Holding.figure_reserved (w.record r).reservedShare g x d).symm
    · exact fun g x d => (Holding.figure_reserved ⟨partition, resource, _⟩ g x d).symm
  · simp only [List.length_singleton, id_eq] at some ⊢
    omega

theorem Outcome.booked {c : Call} (outcome : Outcome w c w') (sound : w.Sound)
    (own : w.ReleasesOwn c) : Booked w c w' := by
  cases outcome with
  | begins step => exact .once (entry_begins sound step) rfl
  | ends step =>
    rename_i a c report ending partition s s' r
    have runs : w.running? a c = some r := by
      rw [step.running?_before, step.found]
    exact .once (entry_ends sound step (own r runs)) (by simp [givesBack, complete, step.before, step.found])
  | relabels step => exact .once (entry_relabels sound step) rfl
  | reserves step => exact .once (entry_reserves sound step) rfl
  | displaces _ first second =>
    exact .twice (entry_lapses sound first) (entry_reserves (sound.lapses first) second) rfl
  | resizes _ step =>
    obtain ⟨postings, entry⟩ := entry_resizes sound step
    exact .once entry rfl
  | lapses step => exact .once (entry_lapses sound step) rfl
  | moves step => exact .once (entry_quiet step.toTurn (sound.shift_moves step)) rfl
  | delivers step => exact .once (entry_quiet step.toTurn (shift_delivers step)) rfl
  | notes _ back step => exact .once (entry_quiet step.toTurn (shift_notes step)) back
  | tends back step => exact .never step back

theorem booked (sound : w.Sound) (c : Call) (own : w.ReleasesOwn c) : Booked w c (w.perform c) :=
  (outcome sound c).booked sound own

end World
end ClusterLedger
