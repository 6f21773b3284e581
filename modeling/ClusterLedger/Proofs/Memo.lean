import ClusterLedger.Proofs.History
import ClusterLedger.Proofs.Parts
/- What an attempt keeps beside its lists, its figures and its headroom: its demand, whether it was
   stopped, how often it made reservations again, and the launch of its master. One law says what a
   call makes of that; whatever else a call writes does not show in it. -/
namespace ClusterLedger

structure Memo where
  demand : Demand
  stopped : Bool
  reReservations : Table Priority Nat
  launch : Launch
  amAllocated : Bool

def Attempt.memo (s : Attempt) : Memo :=
  ⟨s.demand, s.stopped, s.reReservations, s.launch, s.amAllocated⟩

namespace Memo

def countAgain (m : Memo) (p : Priority) : Memo :=
  { m with reReservations := m.reReservations.insert p ((m.reReservations.get? p).getD 0 + 1) }

def advance (m : Memo) (state : LaunchState) : Memo :=
  { m with launch := m.launch.advance state "" }

def serve (m : Memo) (p : Priority) (places : List String) (isMaster : Bool) : Memo :=
  let served := { m with demand := (m.demand.consume p places).2 }
  if isMaster then { served.advance .assigned with amAllocated := true } else served

def process (m : Memo) (node : Node) : Memo :=
  if m.amAllocated then m else { m with launch := m.launch.processed node }

end Memo

namespace World

def memo? (w : World) (a : AttemptId) : Option Memo := (w.attempts.get? a).map (·.memo)

instance : Attempt.OffBooks Attempt.memo := ⟨fun _ _ _ _ _ _ _ _ _ => rfl⟩

/-- A reservation is granted to the handle that the index has at its berth. -/
def Again (w : World) (x : AttemptId) (p : Priority) (n : NodeId) (existing : Option RecordId)
    (c : Container) : Prop :=
  existing.isSome ∧ w.reservation? x ⟨p, n⟩ = existing ∧
    (w.reserve x p n existing c).toOption.isSome

instance (w : World) (x : AttemptId) (p : Priority) (n : NodeId) (existing : Option RecordId)
    (c : Container) : Decidable (w.Again x p n existing c) :=
  inferInstanceAs (Decidable (_ ∧ _ ∧ _))

def masterRuns (w : World) (a : AttemptId) (id : ContainerId) : Bool :=
  (w.running? a id).any fun r => (w.record r).isMaster

def masterWaits (w : World) (a : AttemptId) : Bool :=
  (w.waiting a).any fun r => (w.record r).isMaster

/-- What a call makes of the memo of an attempt. -/
def note (w : World) (a : AttemptId) (m : Memo) : Call → Memo
  | .allocate x locality n p c =>
    match w.nodes.get? n with
    | some node =>
      if x = a ∧ (w.allocate x locality n p c).1.isSome then
        m.serve p (locality.places node.id node.rack) c.isMaster
      else m
    | none => m
  | .complete x id _ _ _ => if x = a ∧ w.masterRuns x id then m.advance .completed else m
  | .reserve x p n existing c =>
    if (w.attempts.get? x).map (·.id) = some a ∧ w.Again x p n existing c then m.countAgain p else m
  | .unreserve x p n =>
    if x = a ∧ (w.unreserve x p n).1 then { m with reReservations := m.reReservations.erase p } else m
  | .snapshot x _ => if x = a ∧ w.masterWaits x then m.advance .launched else m
  | .request x requests => if x = a then { m with demand := m.demand.update requests } else m
  | .stop x => if x = a then { m with stopped := true } else m
  | .skipNode x text => if x = a then { m with launch := m.launch.skip text } else m
  | .processNode x n =>
    match w.nodes.get? n with
    | some node => if x = a then m.process node else m
    | none => m
  | _ => m

section Writes
variable (w : World) (a b : AttemptId)

theorem memo_updateAttempt (f : Attempt → Attempt) : (w.updateAttempt a f).memo? b =
    if b = a then (w.attempts.get? a).map fun s => (f s).memo else w.memo? b := by
  simp only [memo?, updateAttempt_attempts]
  split
  · simp [Function.comp_def]
  · rfl

theorem memo_written {f : Attempt → Attempt} {g : Memo → Memo} (shows : ∀ s, (f s).memo = g s.memo) :
    (w.updateAttempt a f).memo? b = if b = a then (w.memo? a).map g else w.memo? b := by
  rw [memo_updateAttempt]
  simp only [shows, memo?, Option.map_map, Function.comp_def]

theorem memo_kept {f : Attempt → Attempt} (kept : ∀ s, (f s).memo = s.memo) :
    (w.updateAttempt a f).memo? = w.memo? :=
  part_kept Attempt.memo w a kept

variable (s : Attempt) (g : Figure) (p : Partition) (r : Resource) (x : RecordId)

@[simp] theorem memo_increase : (w.increase s g p r).memo? = w.memo? :=
  part_increase Attempt.memo w s g p r

@[simp] theorem memo_decrease : (w.decrease s g p r).memo? = w.memo? :=
  part_decrease Attempt.memo w s g p r

@[simp] theorem memo_updateQueue (q : QueueName) (f : Queue → Queue) :
    (w.updateQueue q f).memo? = w.memo? := rfl

@[simp] theorem memo_updateRecord (f : Record → Record) :
    (w.updateRecord x f).memo? = w.memo? := rfl

@[simp] theorem memo_addRecord (record : Record) :
    (w.addRecord record).2.memo? = w.memo? := rfl

@[simp] theorem memo_addNode (node : Node) : (w.addNode node).memo? = w.memo? := rfl

@[simp] theorem memo_updateNode (n : NodeId) (f : Node → Node) :
    (w.updateNode n f).memo? = w.memo? := rfl

@[simp] theorem memo_retire (berth : Berth) : (w.retire s berth x).memo? = w.memo? :=
  part_retire Attempt.memo w s x berth

@[simp] theorem memo_retireDisplaced (n : NodeId) (displaced : Option Slot) :
    (w.retireDisplaced s n displaced x).memo? = w.memo? :=
  part_retireDisplaced Attempt.memo w s x n displaced

@[simp] theorem memo_settle (berth : Berth) : (w.settle s berth r x).memo? = w.memo? :=
  part_settle Attempt.memo w s r x berth

theorem memo_renew (priority : Priority) : (w.renew s priority p x).memo? b =
    if b = s.id then (w.memo? s.id).map (·.countAgain priority) else w.memo? b := by
  rw [renew, memo_written _ _ b (f := (·.countReReservation priority)) (g := (·.countAgain priority))
    fun _ => rfl]
  simp [unaccount]

end Writes

variable {w w' : World} (a : AttemptId)

theorem reserve_kinds {x : AttemptId} {p : Priority} {n : NodeId} {existing : Option RecordId}
    {c : Container} {r : RecordId} (answer : w.reserve x p n existing c = .ok (r, w')) :
    ∃ s node, w.attempts.get? x = some s ∧
      ((¬ w.Again x p n existing c ∧ w.reserveFresh s p node c = (.ok r, w')) ∨
        (w.Again x p n existing c ∧ w.reserveAgain s p node c.resource r = (.ok r, w'))) := by
  have kind : w.Again x p n existing c ↔ existing.isSome ∧ w.reservation? x ⟨p, n⟩ = existing := by
    simp [Again, answer, Except.toOption]
  obtain ⟨s, node, found, _, _, answer⟩ := reserve_granted answer
  have stands : w.reservation? x ⟨p, n⟩ = s.reservations.get? ⟨p, n⟩ := by
    simp [reservation?, found]
  rw [kind, stands]
  refine ⟨s, node, found, ?_⟩
  unfold reserveOver at answer
  split at answer
  · rename_i old there
    split at answer
    · rename_i same
      obtain rfl := (reserveAgain_made answer).1
      exact .inr ⟨⟨by rw [same]; rfl, there.trans same.symm⟩, answer⟩
    · rename_i other
      exact .inl ⟨fun again => other (again.2.symm.trans there), answer⟩
  · rename_i absent
    refine .inl ⟨fun again => ?_, answer⟩
    rw [← again.2, absent] at again
    simp at again

theorem memo_enroll (x : AttemptId) (record : Record) (clock : Nat) (id : ContainerId) (r : RecordId)
    (demand : Demand) :
    ((w.addRecord record).2.updateAttempt x (·.enroll clock id r demand)).memo? a =
      if a = x then (w.memo? x).map fun m => { m with demand } else w.memo? a := by
  rw [memo_written _ x a (f := (·.enroll clock id r demand)) (g := fun m => { m with demand })
    fun _ => rfl, memo_addRecord]

theorem memo_allocate (x : AttemptId) (locality : Locality) (n : NodeId) (p : Priority)
    (c : Container) : (w.allocate x locality n p c).2.memo? a =
      (w.memo? a).map (w.note a · (.allocate x locality n p c)) := by
  rcases allocate_cases (w := w) x locality n p c with refused | ⟨s, node, found, offered, may⟩
  · simp only [refused, note, Option.isSome_none, Bool.false_eq_true, and_false, ↓reduceIte]
    split <;> simp
  · have granted : (w.allocate x locality n p c).1.isSome = true := by
      obtain ⟨r, w', answer, _⟩ := allocate_begin locality found offered may
      rw [answer]
      rfl
    simp only [note, offered, granted, and_true]
    simp only [allocate, found, offered, may, ↓reduceIte]
    generalize made : ({ Record.make c s.id s.user node.partition with
      requests := (s.demand.consume p (locality.places node.id node.rack)).1 } : Record).start = record
    have enrolled := fun a => memo_enroll (w := w) a x record w.clock c.id ⟨w.records.size⟩
      (s.demand.consume p (locality.places node.id node.rack)).2
    have own : w.memo? x = some s.memo := by rw [memo?, found, Option.map_some]
    split
    · rename_i master
      refine (memo_written _ x a (g := fun m => { m.advance .assigned with amAllocated := true })
        fun _ => rfl).trans ?_
      simp only [memo_increase]
      refine (if_congr Iff.rfl (congrArg _ (enrolled x)) (enrolled a)).trans ?_
      by_cases here : a = x
      · subst here
        simp [own, Memo.serve, master, Attempt.memo]
      · simp [here, Ne.symm here]
    · rename_i plain
      simp only [memo_increase]
      refine (enrolled a).trans ?_
      by_cases here : a = x
      · subst here
        simp [own, Memo.serve, plain, Attempt.memo]
      · simp [here, Ne.symm here]

theorem memo_complete (x : AttemptId) (id : ContainerId) (report : ExitReport) (ending : Ending)
    (partition : Partition) : (w.complete x id report ending partition).2.memo? a =
      (w.memo? a).map (w.note a · (.complete x id report ending partition)) := by
  have told : ∀ m, w.note a m (.complete x id report ending partition) =
      if x = a ∧ w.masterRuns x id then m.advance .completed else m := fun _ => rfl
  cases found : w.attempts.get? x with
  | none => simp [complete, told, masterRuns, running?, found]
  | some s =>
    cases live : s.live.get? id with
    | none => simp [complete, told, masterRuns, running?, found, live]
    | some r =>
      have runs : w.masterRuns x id = (w.record r).isMaster := by
        simp [masterRuns, running?, found, live]
      simp only [told, runs, complete, found, live]
      generalize (s.undelivered.filter fun u => (w.record u).id != id) = undelivered
      have dropped := memo_kept w x (f := fun s => { s.accrue w.clock with
        marks := (s.marks.unmark id).2, live := s.live.erase id, undelivered }) fun _ => rfl
      refine (memo_written _ x a (g := fun m =>
        if (w.record r).isMaster then m.advance .completed else m) fun s' => ?_).trans ?_
      · split <;> rfl
      · cases (w.record r).isMaster
        all_goals
          simp only [↓reduceIte, Bool.false_eq_true, and_true, and_false, memo_decrease,
            memo_updateQueue, memo_updateRecord, dropped]
          by_cases here : a = x
          · simp [here]
          · simp [here, Ne.symm here]

theorem memo_snapshot (x : AttemptId) (cluster : Resource) :
    (w.snapshot x cluster).2.memo? a =
      (w.memo? a).map (w.note a · (.snapshot x cluster)) := by
  have told : ∀ m, w.note a m (.snapshot x cluster) =
      if x = a ∧ w.masterWaits x then m.advance .launched else m := fun _ => rfl
  cases found : w.attempts.get? x with
  | none => simp [snapshot, told, masterWaits, waiting, found]
  | some s =>
    obtain ⟨_, same⟩ := acquire_follows (w := w) s.undelivered
    have waits : w.masterWaits x =
        (s.undelivered.map fun r => (w.record r).container).any (·.isMaster) := by
      simp only [masterWaits, waiting, found, Option.map_some, Option.getD_some, List.any_map]
      rfl
    simp only [told, waits, snapshot, found]
    generalize (s.undelivered.map fun r => (w.record r).container).any (·.isMaster) = master
    rw [memo_updateAttempt, same, found]
    simp only [memo?, same]
    by_cases here : a = x
    · subst here
      simp only [found, ↓reduceIte, Option.map_some, true_and]
      cases master <;> rfl
    · simp [here, Ne.symm here, Function.comp_def]

theorem memo_reserve (x : AttemptId) (p : Priority) (n : NodeId) (existing : Option RecordId)
    (c : Container) : (w.perform (.reserve x p n existing c)).memo? a =
      (w.memo? a).map (w.note a · (.reserve x p n existing c)) := by
  have told : ∀ m, w.note a m (.reserve x p n existing c) =
      if (w.attempts.get? x).map (·.id) = some a ∧ w.Again x p n existing c then m.countAgain p
      else m := fun _ => rfl
  cases answer : w.reserve x p n existing c with
  | error e =>
    have refused : ¬ w.Again x p n existing c := by
      simp [Again, answer, Except.toOption]
    simp [perform_refused answer, told, refused]
  | ok result =>
    obtain ⟨r, w'⟩ := result
    obtain ⟨s, node, found, ⟨first, made⟩ | ⟨again, made⟩⟩ := reserve_kinds answer
    · obtain ⟨_, _, _, _, _, rfl⟩ := reserveFresh_made made
      simp [perform_reserved answer, told, first, enlist]
    · obtain ⟨_, filled, _, rfl⟩ := reserveAgain_made made
      simp only [perform_reserved answer, told, found, again, Option.map_some, Option.some.injEq, and_true,
        memo_settle, memo_renew, memo_retireDisplaced, memo_addNode]
      by_cases here : a = s.id
      · simp [here]
      · simp [here, Ne.symm here]

theorem memo_unreserve (x : AttemptId) (p : Priority) (n : NodeId) :
    (w.unreserve x p n).2.memo? a = (w.memo? a).map (w.note a · (.unreserve x p n)) := by
  have told : ∀ m, w.note a m (.unreserve x p n) = if x = a ∧ (w.unreserve x p n).1 then
      { m with reReservations := m.reReservations.erase p } else m := fun _ => rfl
  rcases unreserve_cases (w := w) x p n with refused | ⟨s, r, found, reserved⟩
  · simp [told, refused]
  · simp only [told, unreserve, found, reserved, and_true, memo_updateNode, memo_retire]
    refine (memo_written w x a (g := fun m => { m with reReservations := m.reReservations.erase p })
      fun _ => rfl).trans ?_
    by_cases here : a = x
    · simp [here]
    · simp [here, Ne.symm here]

theorem memo_note (c : Call) : (w.perform c).memo? a = (w.memo? a).map (w.note a · c) := by
  have still : (w.perform c).memo? = w.memo? → (∀ m, w.note a m c = m) →
      (w.perform c).memo? a = (w.memo? a).map (w.note a · c) := by
    intro same idle
    simp [same, idle]
  -- A call that writes to the attempt it names, and to nothing else.
  have writes : ∀ {x : AttemptId} {f : Attempt → Attempt} {g : Memo → Memo},
      (∀ s, (f s).memo = g s.memo) → w.perform c = w.updateAttempt x f →
        (∀ m, w.note a m c = if x = a then g m else m) →
          (w.perform c).memo? a = (w.memo? a).map (w.note a · c) := by
    intro x f g shows is notes
    rw [is, memo_written w x a shows]
    simp only [notes]
    by_cases here : a = x
    · simp [here]
    · simp [here, Ne.symm here]
  cases c with
  | allocate x locality n p c => exact memo_allocate a x locality n p c
  | complete x id report ending partition => exact memo_complete a x id report ending partition
  | relabel x id old new => exact still (part_relabel Attempt.memo w x id old new) fun _ => rfl
  | mark x id => exact still (part_mark Attempt.memo w x id) fun _ => rfl
  | reserve x p n existing c => exact memo_reserve a x p n existing c
  | unreserve x p n => exact memo_unreserve a x p n
  | move x r source target =>
    exact still (part_moveReservation Attempt.memo w x r source target) fun _ => rfl
  | pick x p need cluster =>
    refine still ?_ fun _ => rfl
    simp only [perform, findToUnreserve]
    split
    · rfl
    · split
      · rfl
      · split
        · exact memo_kept w x fun _ => rfl
        · rfl
  | snapshot x cluster => exact memo_snapshot a x cluster
  | report x partitionResource capacity =>
    exact still (part_report Attempt.memo w x partitionResource capacity) fun _ => rfl
  | transfer x previous =>
    refine still ?_ fun _ => rfl
    simp only [perform, transfer]
    split
    · rfl
    · exact memo_kept w x fun _ => rfl
  | stop x => exact writes (fun _ => rfl) rfl fun _ => rfl
  | request x requests => exact writes (fun _ => rfl) rfl fun _ => rfl
  | limitBy x limit => exact still (memo_kept w x fun _ => rfl) fun _ => rfl
  | setHeadroom x headroom => exact still (memo_kept w x fun _ => rfl) fun _ => rfl
  | skipNode x text => exact writes (fun _ => rfl) rfl fun _ => rfl
  | processNode x n =>
    cases offered : w.nodes.get? n with
    | none => simp [perform, note, offered]
    | some node =>
      have shows : ∀ s : Attempt, (s.processNode node).memo = s.memo.process node := by
        intro s
        unfold Attempt.processNode
        cases taken : s.amAllocated <;> simp [Memo.process, Attempt.memo, taken]
      refine writes (x := x) (f := (·.processNode node)) (g := (·.process node)) shows ?_ fun m => ?_
      · simp only [perform, offered]
      · simp only [note, offered]
  | setPartition | claim | release | setClock => exact still rfl fun _ => rfl

end World
end ClusterLedger
