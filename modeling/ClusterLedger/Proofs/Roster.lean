import ClusterLedger.Proofs.Reservations
import ClusterLedger.World.Heartbeat
/- What each operation leaves of the lists of an attempt: its live containers, those that wait for a
   snapshot, its marks and its reservations. Nothing here depends on what the slots of nodes hold. -/
namespace ClusterLedger

structure Roster where
  live : Table ContainerId RecordId := ∅
  undelivered : List RecordId := []
  marks : Marks := {}
  reservations : Table Berth RecordId := ∅

def Attempt.roster (s : Attempt) : Roster := ⟨s.live, s.undelivered, s.marks, s.reservations⟩

/-- What an attempt is made with and keeps: its name, and what it measures demand with. -/
def Attempt.charter (s : Attempt) : AttemptId × Calculator × Resource :=
  (s.id, s.calculator, s.minimumAllocation)

namespace Roster

def begin (ρ : Roster) (id : ContainerId) (r : RecordId) : Roster :=
  { ρ with live := ρ.live.insert id r, undelivered := ρ.undelivered ++ [r] }

/-- `others` are the waiting records of another name. -/
def drop (ρ : Roster) (id : ContainerId) (others : List RecordId) : Roster :=
  { ρ with live := ρ.live.erase id, undelivered := others, marks := (ρ.marks.unmark id).2 }

def mark (ρ : Roster) (id : ContainerId) : Roster := { ρ with marks := (ρ.marks.mark id).2 }

def deliver (ρ : Roster) : Roster := { ρ with undelivered := [], marks := {} }

def reserve (ρ : Roster) (b : Berth) (r : RecordId) : Roster :=
  { ρ with reservations := ρ.reservations.insert b r }

def unreserve (ρ : Roster) (b : Berth) : Roster :=
  { ρ with reservations := ρ.reservations.erase b }

def giveUp (ρ : Roster) : Option Berth → Roster
  | none => ρ
  | some b => ρ.unreserve b

structure Within (ρ' ρ : Roster) : Prop where
  live : ρ'.live = ρ.live
  undelivered : ρ'.undelivered = ρ.undelivered
  marks : ρ'.marks = ρ.marks
  reservations : ∀ b r, ρ'.reservations.get? b = some r → ρ.reservations.get? b = some r

theorem within_refl (ρ : Roster) : ρ.Within ρ := ⟨rfl, rfl, rfl, fun _ _ found => found⟩

theorem unreserve_within (ρ : Roster) (b : Berth) : (ρ.unreserve b).Within ρ := by
  refine ⟨rfl, rfl, rfl, fun b' r found => ?_⟩
  simp only [unreserve, Table.lookup_erase] at found
  split at found
  · simp at found
  · exact found

theorem giveUp_within (ρ : Roster) (gone : Option Berth) : (ρ.giveUp gone).Within ρ := by
  cases gone with
  | none => exact within_refl ρ
  | some b => exact unreserve_within ρ b

theorem unreserve_absent {ρ : Roster} {b : Berth} (absent : ρ.reservations.get? b = none) :
    ρ.unreserve b = ρ := by
  rw [unreserve, Table.erase_of_absent absent]

end Roster

namespace World

/-- A name that no attempt has reads as an attempt that lists nothing. -/
def roster (w : World) (a : AttemptId) : Roster := ((w.attempts.get? a).map (·.roster)).getD {}

def container (w : World) (r : RecordId) : Container := (w.record r).container

theorem roster_of_found {w : World} {a : AttemptId} {s : Attempt}
    (found : w.attempts.get? a = some s) : w.roster a = s.roster := by
  simp [roster, found]

theorem running?_roster (w : World) (a : AttemptId) (id : ContainerId) :
    w.running? a id = (w.roster a).live.get? id := by
  cases found : w.attempts.get? a with
  | none => simp [running?, roster, found]
  | some s => simp [running?, roster, found, Attempt.roster]

theorem reservation?_roster (w : World) (a : AttemptId) (b : Berth) :
    w.reservation? a b = (w.roster a).reservations.get? b := by
  cases found : w.attempts.get? a with
  | none => simp [reservation?, roster, found]
  | some s => simp [reservation?, roster, found, Attempt.roster]

theorem waiting_roster (w : World) (a : AttemptId) : w.waiting a = (w.roster a).undelivered := by
  cases found : w.attempts.get? a with
  | none => simp [waiting, roster, found]
  | some s => simp [waiting, roster, found, Attempt.roster]

theorem Opening.roster_blank {w : World} (opening : w.Opening) (a : AttemptId) : w.roster a = {} := by
  cases found : w.attempts.get? a with
  | none => simp [roster, found]
  | some s =>
    obtain ⟨_, untouched, _⟩ := opening.attempts found
    rw [roster_of_found found, Attempt.roster, untouched.live, untouched.undelivered,
      untouched.marks, untouched.reservations]

section Writes
variable (w : World) (a : AttemptId)

theorem roster_updateAttempt {s : Attempt} (found : w.attempts.get? a = some s)
    (f : Attempt → Attempt) (b : AttemptId) :
    (w.updateAttempt a f).roster b = if b = a then (f s).roster else w.roster b := by
  unfold roster
  rw [updateAttempt_attempts, found]
  split <;> rfl

theorem roster_kept {f : Attempt → Attempt} (kept : ∀ s, (f s).roster = s.roster) :
    (w.updateAttempt a f).roster = w.roster := by
  funext b
  simp only [roster, updateAttempt_attempts]
  split
  · rename_i same
    rw [same]
    cases w.attempts.get? a <;> simp [kept]
  · rfl

variable (s : Attempt) (g : Figure) (p : Partition) (r : Resource) (x : RecordId)

@[simp] theorem roster_increase : (w.increase s g p r).roster = w.roster :=
  roster_kept w s.id (f := fun s => { s with usage := s.usage.increase g p r }) fun _ => rfl

@[simp] theorem roster_decrease : (w.decrease s g p r).roster = w.roster :=
  roster_kept w s.id (f := fun s => { s with usage := s.usage.decrease g p r }) fun _ => rfl

@[simp] theorem roster_updateQueue (q : QueueName) (f : Queue → Queue) :
    (w.updateQueue q f).roster = w.roster := rfl

@[simp] theorem roster_updateRecord (f : Record → Record) :
    (w.updateRecord x f).roster = w.roster := rfl

@[simp] theorem roster_addNode (node : Node) : (w.addNode node).roster = w.roster := rfl

@[simp] theorem roster_updateNode (n : NodeId) (f : Node → Node) :
    (w.updateNode n f).roster = w.roster := rfl

theorem roster_unindex (b : Berth) (c : AttemptId) : (w.unindex a b).roster c =
    if c = a then (w.roster a).unreserve b else w.roster c := by
  simp only [roster, unindex, updateAttempt_attempts]
  split
  · cases w.attempts.get? a <;> rfl
  · rfl

theorem roster_index (known : (w.attempts.get? a).isSome) (b : Berth) (c : AttemptId) :
    (w.index a b x).roster c = if c = a then (w.roster a).reserve b x else w.roster c := by
  obtain ⟨s, found⟩ := Option.isSome_iff_exists.mp known
  rw [index, roster_updateAttempt w a found, roster_of_found found]
  rfl

end Writes

/-- Attempts keep what they were made with, nodes their names, and known records their containers. -/
structure Follows (w w' : World) : Prop where
  attempts : ∀ a, (w'.attempts.get? a).map (·.charter) = (w.attempts.get? a).map (·.charter)
  nodes : (∀ n node, w.nodes.get? n = some node → node.id = n) →
    ∀ n node, w'.nodes.get? n = some node → node.id = n
  records : ∀ x, w.Knows x → w'.Knows x ∧ w'.container x = w.container x

theorem follows_refl (w : World) : Follows w w :=
  ⟨fun _ => rfl, fun filed => filed, fun _ known => ⟨known, rfl⟩⟩

namespace Follows
variable {w m m' : World} (follows : Follows w m)
include follows

theorem trans (next : Follows m m') : Follows w m' where
  attempts a := (next.attempts a).trans (follows.attempts a)
  nodes filed := next.nodes (follows.nodes filed)
  records := by
    intro x known
    obtain ⟨middle, same⟩ := follows.records x known
    obtain ⟨last, same'⟩ := next.records x middle
    exact ⟨last, same'.trans same⟩

theorem known {a : AttemptId} (known : (w.attempts.get? a).isSome) :
    (m.attempts.get? a).isSome := by
  have same := congrArg Option.isSome (follows.attempts a)
  simpa [known] using same

theorem updateAttempt (a : AttemptId) {f : Attempt → Attempt}
    (kept : ∀ s, (f s).charter = s.charter) : Follows w (m.updateAttempt a f) := by
  refine follows.trans ⟨fun b => ?_, fun filed => filed, fun _ known => ⟨known, rfl⟩⟩
  rw [updateAttempt_attempts]
  split
  · rename_i same
    rw [same]
    cases m.attempts.get? a <;> simp [kept]
  · rfl

theorem updateQueue (q : QueueName) (f : Queue → Queue) : Follows w (m.updateQueue q f) :=
  follows.trans ⟨fun _ => rfl, fun filed => filed, fun _ known => ⟨known, rfl⟩⟩

theorem increase (s : Attempt) (g : Figure) (p : Partition) (r : Resource) :
    Follows w (m.increase s g p r) :=
  (follows.updateAttempt s.id (f := fun s => { s with usage := s.usage.increase g p r })
    fun _ => rfl).updateQueue _ _

theorem decrease (s : Attempt) (g : Figure) (p : Partition) (r : Resource) :
    Follows w (m.decrease s g p r) :=
  (follows.updateAttempt s.id (f := fun s => { s with usage := s.usage.decrease g p r })
    fun _ => rfl).updateQueue _ _

theorem addRecord (record : Record) : Follows w (m.addRecord record).2 := by
  refine follows.trans ⟨fun _ => rfl, fun filed => filed, fun x known => ?_⟩
  refine ⟨(addRecord_knows m x record).mpr (.inl known), ?_⟩
  have other : x ≠ (m.addRecord record).1 := by
    rintro rfl
    simp [Knows, World.addRecord] at known
  rw [container, addRecord_record, if_neg other, container]

theorem updateRecord (r : RecordId) {f : Record → Record}
    (kept : ∀ y, (f y).container = y.container) : Follows w (m.updateRecord r f) := by
  refine follows.trans ⟨fun _ => rfl, fun filed => filed, fun x known => ?_⟩
  refine ⟨(updateRecord_knows m r x f).mpr known, ?_⟩
  by_cases here : x = r
  · subst here
    rw [container, updateRecord_record m x x f known, if_pos rfl, kept, container]
  · simp only [container, World.record, World.updateRecord, Array.getD_eq_getD_getElem?,
      Array.getElem?_modify]
    have apart : r.index ≠ x.index := by
      intro same
      cases r; cases x
      simp_all
    rw [if_neg apart]

theorem addNode (node : Node) : Follows w (m.addNode node) := by
  refine follows.trans ⟨fun _ => rfl, fun filed n other found => ?_, fun _ known => ⟨known, rfl⟩⟩
  rw [addNode_nodes] at found
  split at found
  · rename_i same
    rw [same, Option.some.inj found]
  · exact filed n other found

theorem updateNode (n : NodeId) {f : Node → Node} (named : ∀ x, (f x).id = x.id) :
    Follows w (m.updateNode n f) := by
  refine follows.trans ⟨fun _ => rfl, fun filed k other found => ?_, fun _ known => ⟨known, rfl⟩⟩
  rw [updateNode_nodes] at found
  split at found
  · rename_i same
    obtain ⟨old, at_, rfl⟩ := Option.map_eq_some_iff.mp found
    rw [named, same]
    exact filed n old at_
  · exact filed k other found

theorem index (a : AttemptId) (b : Berth) (r : RecordId) : Follows w (m.index a b r) :=
  follows.updateAttempt a fun _ => rfl

theorem unindex (a : AttemptId) (b : Berth) : Follows w (m.unindex a b) :=
  follows.updateAttempt a fun _ => rfl

theorem retire (s : Attempt) (b : Berth) (r : RecordId) : Follows w (m.retire s b r) :=
  ((follows.unindex s.id b).decrease s .reserved _ _).updateQueue _ _

theorem retireDisplaced (s : Attempt) (n : NodeId) (displaced : Option Slot) (r : RecordId) :
    Follows w (m.retireDisplaced s n displaced r) := by
  unfold World.retireDisplaced
  split
  · exact follows
  · split
    · exact follows
    · split
      · exact follows
      · exact follows.retire s _ _

theorem settle (s : Attempt) (b : Berth) (resource : Resource) (r : RecordId) :
    Follows w (m.settle s b resource r) :=
  ((follows.updateRecord r (f := (·.reserve resource b.node b.priority)) fun _ => rfl).increase s
    .reserved _ _).index s.id b r

end Follows

end World
end ClusterLedger
