import ClusterLedger.Node
import ClusterLedger.Decimal.Layout
/- Launch progress of an application master, with the texts that operators read. -/
namespace ClusterLedger

inductive LaunchState
  | inactivated
  | activated
  | assigned
  | launched
  | completed
deriving DecidableEq, Repr, Inhabited

def LaunchState.message : LaunchState → String
  | inactivated => "AM container is not yet activated."
  | activated => "Application is activated, waiting for resources to be assigned for AM."
  | assigned => "Scheduler has assigned a container for AM, waiting for AM container to be launched"
  | launched => "AM container is launched, waiting for AM container to Register with RM"
  | completed => "AM container has completed."

/-- `skipNote` says why the node at hand was skipped, until a node is processed. -/
structure Launch where
  state : LaunchState := .inactivated
  message : String := ""
  skipNote : Option String := none
deriving DecidableEq, Repr, Inhabited

namespace Launch

def advance (l : Launch) (state : LaunchState) (detail : String) : Launch :=
  { l with state, message := state.message ++ detail }

def skip (l : Launch) (note : String) : Launch := { l with skipNote := some note }

def nodeNote (n : Node) : String :=
  let available := n.available
  let partition := n.partition
  let total := n.total
  let id := n.id
  s!" Last Node which was processed for the application : {id} ( Partition : [{partition}], Total resource : {total}, Available resource : {available} )."

def processed (l : Launch) (n : Node) : Launch :=
  { l with skipNote := none }.advance .activated (l.skipNote.getD "" ++ nodeNote n)

end Launch

structure MasterLimits where
  limit : Resource := .zero
  userLimit : Resource := .zero
  used : Resource := .zero
deriving DecidableEq, Repr, Inhabited

structure Capacities where
  partitionResource : Resource := .zero
  capacity : Float := 0.0
  usedCapacity : Float := 0.0
  maxCapacity : Float := 0.0
deriving DecidableEq, Repr, Inhabited

def percent (share : Float) : String := Decimal.Layout.plain.text (share * 100.0)

def pendingMessage (partition : Partition) (amResource : Resource) (m : MasterLimits) : String :=
  s!" Details : AM Partition = {partition.display}; AM Resource Request = {amResource}; " ++
  s!"Queue Resource Limit for AM = {m.limit}; " ++
  s!"User AM Resource Limit of the queue = {m.userLimit}; Queue AM Resource Usage = {m.used}; "

def activatedMessage (partition : Partition) (c : Capacities) : String :=
  s!" Details : AM Partition = {partition.display} ; Partition Resource = {c.partitionResource} ; " ++
  s!"Queue's Absolute capacity = {percent c.capacity} % ; " ++
  s!"Queue's Absolute used capacity = {percent c.usedCapacity} % ; " ++
  s!"Queue's Absolute max capacity = {percent c.maxCapacity} % ; "

end ClusterLedger
