import ClusterLedger.Config
import ClusterLedger.Demand
/- Description of a cluster and of the applications that run on it. -/
namespace ClusterLedger

structure SimulationSettings where
  /-- Scheduling passes side by side, each over its own share of the nodes. -/
  workers : UInt64 := 2
  heartbeats : UInt64 := 10
  heartbeatMillis : UInt64 := 100
  /-- Heartbeats from one preemption pass to the next; zero for none. -/
  preemptEvery : UInt64 := 0
deriving DecidableEq, Repr, Inhabited

structure NodeSpec where
  id : NodeId
  rack : String := "/default-rack"
  partition : Partition := .default
  memoryMb : UInt64
  vcores : UInt32
deriving DecidableEq, Repr

def NodeSpec.total (n : NodeSpec) : Resource := ⟨n.memoryMb, n.vcores⟩

/-- `limit` bounds the headroom of the queue's attempts. -/
structure QueueSpec where
  name : QueueName
  limit : Option Resource := none
  partition : Partition := .default
deriving DecidableEq, Repr

structure AttemptSpec where
  id : AttemptId
  user : String
  queue : QueueName
  amRequest : Option Request := none
  requests : List Request := []
deriving DecidableEq, Repr

structure Cluster where
  scheduler : SchedulerConfig := {}
  simulation : SimulationSettings := {}
  nodes : List NodeSpec := []
  queues : List QueueSpec := []
  attempts : List AttemptSpec := []
deriving DecidableEq, Repr, Inhabited

inductive ClusterError
  | zeroMinimum
  | noWorkers
  | noNodes
  | duplicateNode (id : NodeId)
  | duplicateQueue
  | duplicateAttempt (id : AttemptId)
  | unknownQueue (attempt : AttemptId) (queue : QueueName)
deriving DecidableEq, Repr

def ClusterError.message : ClusterError → String
  | zeroMinimum => "scheduler.minimum_allocation must be non-zero"
  | noWorkers => "simulation.workers must be at least 1"
  | noNodes => "cluster has no nodes"
  | duplicateNode id => s!"duplicate node id: {id}"
  | duplicateQueue => "duplicate queue name"
  | duplicateAttempt id => s!"duplicate attempt id: {id}"
  | unknownQueue attempt queue => s!"attempt {attempt} refers to unknown queue {queue}"

def firstRepeat? [DecidableEq α] (seen : List α) : List α → Option α
  | [] => none
  | x :: rest => if x ∈ seen then some x else firstRepeat? (x :: seen) rest

namespace Cluster

def checkNodes (c : Cluster) : Except ClusterError Unit :=
  match firstRepeat? [] (c.nodes.map (·.id)) with
  | some id => .error (.duplicateNode id)
  | none => .ok ()

def checkQueues (c : Cluster) : Except ClusterError Unit :=
  match firstRepeat? [] (c.queues.map (·.name)) with
  | some _ => .error .duplicateQueue
  | none => .ok ()

/-- Attempts in order: a repeated name is found before the queue is looked up. -/
def checkAttempts (queues : List QueueName) (seen : List AttemptId) :
    List AttemptSpec → Except ClusterError Unit
  | [] => .ok ()
  | s :: rest =>
    if s.id ∈ seen then .error (.duplicateAttempt s.id)
    else if s.queue ∉ queues then .error (.unknownQueue s.id s.queue)
    else checkAttempts queues (s.id :: seen) rest

def validate (c : Cluster) : Except ClusterError Unit := do
  if c.scheduler.minimumAllocation.isZero then throw .zeroMinimum
  if c.simulation.workers = 0 then throw .noWorkers
  if c.nodes.isEmpty then throw .noNodes
  c.checkNodes
  c.checkQueues
  checkAttempts (c.queues.map (·.name)) [] c.attempts

def resource (c : Cluster) : Resource := .sum (c.nodes.map (·.total))

def partitions (c : Cluster) : List Partition :=
  (Table.ofList ((Partition.default :: c.nodes.map (·.partition)).map (·, ()))).keys

end Cluster
end ClusterLedger
