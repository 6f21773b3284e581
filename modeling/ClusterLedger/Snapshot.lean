import ClusterLedger.Container
import ClusterLedger.Marks
/- What an attempt hands out at a heartbeat, and its usage report. -/
namespace ClusterLedger

structure Snapshot where
  containers : List Container := []
  headroom : Resource := .zero
  preempted : Marks := {}
  releaseRequests : List Request := []
  nodeTokens : Table NodeId String := ∅
deriving DecidableEq, Repr, Inhabited

def Snapshot.isEmpty (s : Snapshot) : Bool := s.containers.isEmpty && s.preempted.isEmpty

structure UsageReport where
  usedContainers : Nat
  reservedContainers : Nat
  used : Resource
  reserved : Resource
  needed : Resource
  memorySeconds : UInt64
  vcoreSeconds : UInt64
  queueUsagePercentage : Float
deriving DecidableEq, Repr, Inhabited

end ClusterLedger
