import ClusterLedger.Container
/- Nodes, what is claimed on them, and their single reservation slot. -/
namespace ClusterLedger

structure Slot where
  attempt : AttemptId
  priority : Priority
  record : RecordId
deriving DecidableEq, Repr

structure SlotOccupied where
  node : NodeId
  holder : AttemptId
deriving DecidableEq, Repr

def SlotOccupied.message (e : SlotOccupied) : String :=
  s!"node {e.node} already holds a reservation for attempt {e.holder}"

structure Node where
  id : NodeId
  rack : String
  partition : Partition
  total : Resource
  claimed : Resource := .zero
  slot : Option Slot := none
deriving DecidableEq, Repr

namespace Node

def available (n : Node) : Resource := n.total - n.claimed

def claim? (n : Node) (r : Resource) : Option Node :=
  if r.fitsIn n.available then some { n with claimed := n.claimed + r } else none

def release (n : Node) (r : Resource) : Node := { n with claimed := n.claimed - r }

def heldBy (n : Node) (record : RecordId) : Bool := n.slot.any (·.record == record)

/-- Fills the slot; the attempt that already holds it may put another record there.
    The answer carries what was in the slot before. -/
def reserve (n : Node) (attempt : AttemptId) (priority : Priority) (record : RecordId) :
    Except SlotOccupied (Option Slot × Node) :=
  match n.slot with
  | none => .ok (none, { n with slot := some ⟨attempt, priority, record⟩ })
  | some held =>
    if held.attempt = attempt then
      .ok (some held, { n with slot := some ⟨attempt, priority, record⟩ })
    else .error ⟨n.id, held.attempt⟩

def reserveVacant (n : Node) (attempt : AttemptId) (priority : Priority) (record : RecordId) :
    Except SlotOccupied Node :=
  match n.slot with
  | none => .ok { n with slot := some ⟨attempt, priority, record⟩ }
  | some held => .error ⟨n.id, held.attempt⟩

def vacate (n : Node) (record : RecordId) : Node :=
  if n.heldBy record then { n with slot := none } else n

end Node
end ClusterLedger
