import ClusterLedger.Proofs.Reservations
import ClusterLedger.World.Heartbeat
/- Parts of attempts that do not show what is on their lists and in their figures. What every such part
   keeps under the writes to a world is said once, for all of them. -/
namespace ClusterLedger

/-- Neither the lists of the attempt nor its figures tell the part. -/
class Attempt.OffBooks {α : Type} (part : Attempt → α) : Prop where
  same : ∀ (s : Attempt) (live : Table ContainerId RecordId) (undelivered : List RecordId)
    (reservations : Table Berth RecordId) (marks : Marks) (usage : Usage) (accrual : Accrual)
    (amPartition : Partition) (lastHeadroom : Resource),
    part { s with
      live, undelivered, reservations, marks, usage, accrual, amPartition, lastHeadroom } = part s

namespace World
variable {α : Type} (part : Attempt → α) (w : World) (a : AttemptId) (s : Attempt)

def part? (w : World) (part : Attempt → α) (a : AttemptId) : Option α :=
  (w.attempts.get? a).map part

theorem part_kept {f : Attempt → Attempt} (kept : ∀ s, part (f s) = part s) :
    (w.updateAttempt a f).part? part = w.part? part := by
  funext b
  simp only [part?, updateAttempt_attempts]
  split
  · rename_i same
    simp [same, kept, Function.comp_def]
  · rfl

variable (g : Figure) (p : Partition) (r : Resource) (x : RecordId)

@[simp] theorem part_updateQueue (q : QueueName) (f : Queue → Queue) :
    (w.updateQueue q f).part? part = w.part? part := rfl

@[simp] theorem part_updateRecord (f : Record → Record) :
    (w.updateRecord x f).part? part = w.part? part := rfl

@[simp] theorem part_addRecord (record : Record) :
    (w.addRecord record).2.part? part = w.part? part := rfl

@[simp] theorem part_addNode (node : Node) : (w.addNode node).part? part = w.part? part := rfl

@[simp] theorem part_updateNode (n : NodeId) (f : Node → Node) :
    (w.updateNode n f).part? part = w.part? part := rfl

section OffBooks
variable [off : Attempt.OffBooks part]

@[simp] theorem part_increase : (w.increase s g p r).part? part = w.part? part :=
  part_kept part w s.id (f := fun s => { s with usage := s.usage.increase g p r }) fun s =>
    off.same s _ _ _ _ _ _ _ _

@[simp] theorem part_decrease : (w.decrease s g p r).part? part = w.part? part :=
  part_kept part w s.id (f := fun s => { s with usage := s.usage.decrease g p r }) fun s =>
    off.same s _ _ _ _ _ _ _ _

@[simp] theorem part_index (berth : Berth) : (w.index a berth x).part? part = w.part? part :=
  part_kept part w a fun s => off.same s _ _ _ _ _ _ _ _

@[simp] theorem part_unindex (berth : Berth) : (w.unindex a berth).part? part = w.part? part :=
  part_kept part w a fun s => off.same s _ _ _ _ _ _ _ _

@[simp] theorem part_retire (berth : Berth) : (w.retire s berth x).part? part = w.part? part := by
  simp [retire, unaccount]

@[simp] theorem part_retireDisplaced (n : NodeId) (displaced : Option Slot) :
    (w.retireDisplaced s n displaced x).part? part = w.part? part := by
  unfold retireDisplaced
  split
  · rfl
  · split
    · rfl
    · split <;> simp

@[simp] theorem part_settle (berth : Berth) : (w.settle s berth r x).part? part = w.part? part := by
  simp [settle, account]

theorem part_relabel (id : ContainerId) (old new : Partition) :
    (w.relabel a id old new).2.part? part = w.part? part := by
  unfold relabel
  split
  · rfl
  · split
    · rfl
    · split
      · rfl
      · have moved := fun m : World =>
          part_kept part m a (f := fun s => { s with amPartition := new }) fun s =>
            off.same s _ _ _ _ _ _ _ _
        simp only [part_updateRecord]
        split <;> simp [moved]

theorem part_mark (id : ContainerId) : (w.mark a id).2.part? part = w.part? part := by
  unfold mark
  split
  · rfl
  · split
    · exact part_kept part w a fun s => off.same s _ _ _ _ _ _ _ _
    · rfl

theorem part_moveReservation (source target : NodeId) :
    (w.moveReservation a x source target).2.part? part = w.part? part := by
  unfold moveReservation
  split
  · split
    · rfl
    · split
      · split <;> simp
      · rfl
  · rfl

theorem part_report (partitionResource : Resource) (capacity : Float) :
    (w.report a partitionResource capacity).2.part? part = w.part? part := by
  unfold report
  split
  · rfl
  · exact part_kept part w a fun s => off.same s _ _ _ _ _ _ _ _

end OffBooks
end World
end ClusterLedger
