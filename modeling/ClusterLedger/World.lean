import ClusterLedger.Attempt
import ClusterLedger.Queue
/- Attempts, the nodes and queues that they share, and all container records.
   A record keeps its identity whatever its container is called and wherever it is listed. -/
namespace ClusterLedger

structure World where
  nodes : Table NodeId Node := ∅
  queues : Table QueueName Queue := ∅
  attempts : Table AttemptId Attempt := ∅
  records : Array Record := #[]
  /-- Nanoseconds; what is held is charged up to this reading. -/
  clock : Nat := 0
deriving DecidableEq, Repr, Inhabited

inductive LedgerError
  | containerLive (id : ContainerId)
  | nodeNotFound (id : NodeId)
  | node (e : SlotOccupied)
deriving DecidableEq, Repr

def LedgerError.message : LedgerError → String
  | containerLive id => s!"container is already live: {id}"
  | nodeNotFound id => s!"node not found: {id}"
  | node e => "node error: " ++ e.message

namespace World

/-- An identity that was never given out reads as a blank record. -/
def record (w : World) (r : RecordId) : Record := w.records.getD r.index default

def addRecord (w : World) (record : Record) : RecordId × World :=
  (⟨w.records.size⟩, { w with records := w.records.push record })

def updateRecord (w : World) (r : RecordId) (f : Record → Record) : World :=
  { w with records := w.records.modify r.index f }

def updateAttempt (w : World) (a : AttemptId) (f : Attempt → Attempt) : World :=
  { w with attempts := w.attempts.modify a f }

def updateQueue (w : World) (q : QueueName) (f : Queue → Queue) : World :=
  { w with queues := w.queues.modify q f }

def updateNode (w : World) (n : NodeId) (f : Node → Node) : World :=
  { w with nodes := w.nodes.modify n f }

/-- A later node replaces an earlier one of its name, slot and claims included. -/
def addNode (w : World) (n : Node) : World := { w with nodes := w.nodes.insert n.id n }

def addQueue (w : World) (name : QueueName) : World :=
  { w with queues := w.queues.insert name { name } }

def addAttempt (w : World) (s : Attempt) : World := { w with attempts := w.attempts.insert s.id s }

def requireNode (w : World) (n : NodeId) : Except LedgerError Node :=
  match w.nodes.get? n with
  | some node => .ok node
  | none => .error (.nodeNotFound n)

def clusterResource (w : World) : Resource := .sum (w.nodes.values.map (·.total))

def increase (w : World) (s : Attempt) (figure : Figure) (p : Partition) (r : Resource) : World :=
  (w.updateAttempt s.id fun s => { s with usage := s.usage.increase figure p r }).updateQueue s.queue
    (·.increase figure p r)

def decrease (w : World) (s : Attempt) (figure : Figure) (p : Partition) (r : Resource) : World :=
  (w.updateAttempt s.id fun s => { s with usage := s.usage.decrease figure p r }).updateQueue s.queue
    (·.decrease figure p r)

def isReserved (w : World) (s : Attempt) (id : ContainerId) : Bool :=
  s.reservations.values.any fun r => (w.record r).id == id

def headroom (w : World) (s : Attempt) : Resource :=
  match s.queueLimit with
  | none => s.fallbackHeadroom
  | some l => ((w.queues.get? l.queue).map (·.headroom l.partition l.limit)).getD l.limit

end World
end ClusterLedger
