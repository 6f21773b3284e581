import ClusterLedger.Calculator
import ClusterLedger.Accrual
/- Settings of the scheduler. -/
namespace ClusterLedger

structure SchedulerConfig where
  calculator : Calculator := .memoryOnly
  /-- How long a computed usage report stays current. -/
  refreshSeconds : UInt64 := 3
  /-- The smallest container, and the unit of replacement demand. -/
  minimumAllocation : Resource := ⟨1024, 1⟩
deriving DecidableEq, Repr, Inhabited

def SchedulerConfig.refreshNanos (c : SchedulerConfig) : Nat := c.refreshSeconds.toNat * nanosPerSecond

end ClusterLedger
