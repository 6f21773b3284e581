import ClusterLedger.Demand
/- Containers and the record that follows one through its life. -/
namespace ClusterLedger

/-- What a scheduling pass asks for. The token is handed on untouched. -/
structure Container where
  id : ContainerId
  node : NodeId
  resource : Resource
  priority : Priority
  isMaster : Bool := false
  token : Option String := none
deriving DecidableEq, Repr, Inhabited

inductive ContainerState
  | fresh
  | reserved
  | allocated
  | acquired
  | completed
deriving DecidableEq, Repr, Inhabited

inductive Ending
  | finished
  | released
  | killed
  | expired
  | preempted
deriving DecidableEq, Repr, Inhabited

structure ExitReport where
  exitStatus : Int32
  diagnostics : String
deriving DecidableEq, Repr, Inhabited

/-- Identity of a record: its position in the book of records. -/
structure RecordId where
  index : Nat
deriving DecidableEq, Repr, Inhabited

/-- A container as its attempt keeps it. `node` is where it runs or is reserved now. -/
structure Record where
  container : Container
  attempt : AttemptId
  user : String
  partition : Partition
  node : NodeId
  state : ContainerState := .fresh
  reservedResource : Resource := .zero
  reservedPriority : Option Priority := none
  requests : List Request := []
  completion : Option (ExitReport × Ending) := none
deriving DecidableEq, Repr, Inhabited

namespace Record

def make (container : Container) (attempt : AttemptId) (user : String) (partition : Partition) :
    Record :=
  { container, attempt, user, partition, node := container.node }

def id (r : Record) : ContainerId := r.container.id
def resource (r : Record) : Resource := r.container.resource
def isMaster (r : Record) : Bool := r.container.isMaster

def start (r : Record) : Record := { r with state := .allocated }

def acquire (r : Record) : Record :=
  if r.state = .allocated then { r with state := .acquired } else r

def reserve (r : Record) (resource : Resource) (node : NodeId) (priority : Priority) : Record :=
  { r with
    state := .reserved, reservedResource := resource, reservedPriority := some priority, node }

def finish (r : Record) (report : ExitReport) (ending : Ending) : Record :=
  { r with state := .completed, completion := some (report, ending) }

end Record
end ClusterLedger
