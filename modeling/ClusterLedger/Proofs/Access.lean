import ClusterLedger.World
import ClusterLedger.Proofs.Table
/- What each way of writing to a world leaves to be read. -/
namespace ClusterLedger.World
open Std

def Knows (w : World) (r : RecordId) : Prop := r.index < w.records.size

instance (w : World) (r : RecordId) : Decidable (w.Knows r) :=
  inferInstanceAs (Decidable (r.index < w.records.size))

section Records
variable (w : World) (r x : RecordId) (f : Record → Record)

@[simp] theorem updateRecord_knows : (w.updateRecord r f).Knows x ↔ w.Knows x := by
  simp [Knows, updateRecord]

theorem updateRecord_record (known : w.Knows r) :
    (w.updateRecord r f).record x = if x = r then f (w.record r) else w.record x := by
  obtain ⟨i⟩ := r
  obtain ⟨j⟩ := x
  simp only [Knows] at known
  simp only [record, updateRecord, Array.getD_eq_getD_getElem?, Array.getElem?_modify,
    RecordId.mk.injEq]
  by_cases same : j = i
  · subst same
    simp [known]
  · simp [same, Ne.symm same]

@[simp] theorem addRecord_nodes (record : Record) : (w.addRecord record).2.nodes = w.nodes := rfl

theorem addRecord_knows (record : Record) :
    (w.addRecord record).2.Knows x ↔ w.Knows x ∨ x = (w.addRecord record).1 := by
  obtain ⟨j⟩ := x
  simp only [Knows, addRecord, Array.size_push, RecordId.mk.injEq]
  omega

theorem addRecord_record (record : Record) :
    (w.addRecord record).2.record x =
      if x = (w.addRecord record).1 then record else w.record x := by
  obtain ⟨j⟩ := x
  simp only [World.record, addRecord, Array.getD_eq_getD_getElem?, Array.getElem?_push,
    RecordId.mk.injEq]
  split <;> simp

end Records

section Attempts
variable (w : World) (a b : AttemptId) (f : Attempt → Attempt)

@[simp] theorem updateAttempt_nodes : (w.updateAttempt a f).nodes = w.nodes := rfl
@[simp] theorem updateAttempt_queues : (w.updateAttempt a f).queues = w.queues := rfl

@[simp] theorem updateAttempt_attempts : (w.updateAttempt a f).attempts.get? b =
    if b = a then (w.attempts.get? a).map f else w.attempts.get? b :=
  Table.lookup_modify _ _ _ _

end Attempts

section Queues
variable (w : World) (q q' : QueueName) (f : Queue → Queue)

@[simp] theorem updateQueue_attempts : (w.updateQueue q f).attempts = w.attempts := rfl

@[simp] theorem updateQueue_queues : (w.updateQueue q f).queues.get? q' =
    if q' = q then (w.queues.get? q).map f else w.queues.get? q' :=
  Table.lookup_modify _ _ _ _

end Queues

section Nodes
variable (w : World) (n m : NodeId) (f : Node → Node) (node : Node)

@[simp] theorem updateNode_nodes : (w.updateNode n f).nodes.get? m =
    if m = n then (w.nodes.get? n).map f else w.nodes.get? m :=
  Table.lookup_modify _ _ _ _

@[simp] theorem addNode_record : (w.addNode node).record = w.record := rfl

@[simp] theorem addNode_nodes :
    (w.addNode node).nodes.get? m = if m = node.id then some node else w.nodes.get? m :=
  Table.lookup_insert _ _ _ _

end Nodes

section Figures
variable (w : World) (s : Attempt) (g : Figure) (p : Partition) (r : Resource)

@[simp] theorem increase_attempts (b : AttemptId) : (w.increase s g p r).attempts.get? b =
    if b = s.id then (w.attempts.get? s.id).map fun s => { s with usage := s.usage.increase g p r }
    else w.attempts.get? b := by
  simp [increase]

@[simp] theorem decrease_attempts (b : AttemptId) : (w.decrease s g p r).attempts.get? b =
    if b = s.id then (w.attempts.get? s.id).map fun s => { s with usage := s.usage.decrease g p r }
    else w.attempts.get? b := by
  simp [decrease]

@[simp] theorem increase_queues (q : QueueName) : (w.increase s g p r).queues.get? q =
    if q = s.queue then (w.queues.get? s.queue).map (·.increase g p r) else w.queues.get? q := by
  simp [increase]

@[simp] theorem decrease_queues (q : QueueName) : (w.decrease s g p r).queues.get? q =
    if q = s.queue then (w.queues.get? s.queue).map (·.decrease g p r) else w.queues.get? q := by
  simp [decrease]

end Figures
end ClusterLedger.World
