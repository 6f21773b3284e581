import ClusterLedger.Config
import ClusterLedger.Snapshot
import ClusterLedger.Launch
import ClusterLedger.Usage
/- The books of one application attempt.
   The index of reservations is told by node within priority. It is kept here as one table of berths,
   in that order, because every operation reads and writes single berths and a priority without nodes
   has no entry that could be left over; `Proofs.Shelves` has the table of tables, with the pruning
   that the flat one does not need, and proves that the two stay the same. -/
namespace ClusterLedger
open Std

structure Berth where
  priority : Priority
  node : NodeId
deriving DecidableEq, Repr, Inhabited

namespace Berth

instance : Ord Berth := ⟨compareLex (compareOn priority) (compareOn node)⟩

instance : TransOrd Berth :=
  inferInstanceAs (TransCmp (compareLex (compareOn priority) (compareOn node)))

instance : LawfulEqOrd Berth where
  eq_of_compare {a b} same := by
    have both := Ordering.then_eq_eq.mp
      (show (compare a.priority b.priority).then (compare a.node b.node) = .eq from same)
    cases a; cases b
    congr 1
    · exact LawfulEqCmp.eq_of_compare both.1
    · exact LawfulEqCmp.eq_of_compare both.2

end Berth

/-- A bound on headroom: what a limit leaves of a queue's use of a partition. -/
structure QueueLimit where
  queue : QueueName
  partition : Partition
  limit : Resource
deriving DecidableEq, Repr

structure Attempt where
  id : AttemptId
  user : String
  queue : QueueName
  calculator : Calculator
  minimumAllocation : Resource
  refreshNanos : Nat
  amResource : Resource
  amPartition : Partition
  live : Table ContainerId RecordId := ∅
  /-- Containers allocated since the last snapshot, oldest first. -/
  undelivered : List RecordId := []
  reservations : Table Berth RecordId := ∅
  /-- How often reservations were made again, by priority. -/
  reReservations : Table Priority Nat := ∅
  marks : Marks := {}
  usage : Usage := {}
  accrual : Accrual
  demand : Demand := {}
  queueLimit : Option QueueLimit := none
  /-- Headroom while no queue limit is set. -/
  fallbackHeadroom : Resource := .zero
  lastHeadroom : Resource := .zero
  launch : Launch := {}
  amAllocated : Bool := false
  stopped : Bool := false
deriving DecidableEq, Repr

namespace Attempt

/-- Without a request for its master, an attempt is taken to need the minimum allocation on the
    default partition for it. -/
def make (id : AttemptId) (user : String) (queue : QueueName) (config : SchedulerConfig)
    (amRequest : Option Request) (now : Nat) : Attempt :=
  let amResource := (amRequest.map (·.capability)).getD config.minimumAllocation
  let amPartition := (amRequest.map (·.label)).getD .default
  { id, user, queue, amResource, amPartition
    calculator := config.calculator
    minimumAllocation := config.minimumAllocation
    refreshNanos := config.refreshNanos
    usage := ({} : Usage).assign .amResource amPartition amResource
    accrual := .start now }

def isLive (s : Attempt) (id : ContainerId) : Bool := s.live.contains id

def isWaitingForMaster (s : Attempt) : Bool := !s.amAllocated

def reservationsAt (s : Attempt) (priority : Priority) : List (NodeId × RecordId) :=
  (s.reservations.entries.filter (·.1.priority == priority)).map fun e => (e.1.node, e.2)

def reservedPriorities (s : Attempt) : List Priority :=
  (s.reservations.keys.map (·.priority)).eraseDups

def reReserved (s : Attempt) (priority : Priority) : Nat :=
  (s.reReservations.get? priority).getD 0

def countReReservation (s : Attempt) (priority : Priority) : Attempt :=
  { s with reReservations := s.reReservations.insert priority (s.reReserved priority + 1) }

def accrue (s : Attempt) (now : Nat) : Attempt :=
  { s with accrual := s.accrual.charge now (s.usage.total .used) }

def localityWaitFactor (s : Attempt) (priority : Priority) (clusterNodes : Nat) : Float :=
  let required := (s.demand.atPriority priority).length - 1
  let share := required.toFloat / (max clusterNodes 1).toFloat
  if share < 1.0 then share else 1.0

def processNode (s : Attempt) (n : Node) : Attempt :=
  if s.amAllocated then s else { s with launch := s.launch.processed n }

end Attempt
end ClusterLedger
