import ClusterLedger.Resource
/- Resource held over time, in resource-seconds.
   Clock readings are nanoseconds; a reading before the last charge counts as no time passed. -/
namespace ClusterLedger

def nanosPerSecond : Nat := 1000000000

def secondsOf (nanos : Nat) : Float :=
  (nanos / nanosPerSecond).toFloat + (nanos % nanosPerSecond).toFloat / nanosPerSecond.toFloat

structure Accrual where
  memorySeconds : Float := 0.0
  vcoreSeconds : Float := 0.0
  lastCharge : Nat
  /-- When `report` was last computed; `none` after an invalidation. -/
  computedAt : Option Nat := none
  report : UInt64 × UInt64 := (0, 0)
deriving DecidableEq, Repr, Inhabited

namespace Accrual

def start (now : Nat) : Accrual := { lastCharge := now }

def charge (a : Accrual) (now : Nat) (used : Resource) : Accrual :=
  let elapsed := secondsOf (now - a.lastCharge)
  { a with
    memorySeconds := a.memorySeconds + used.memoryMb.toFloat * elapsed
    vcoreSeconds := a.vcoreSeconds + used.vcores.toFloat * elapsed
    lastCharge := now }

def invalidate (a : Accrual) : Accrual := { a with computedAt := none }

def isCurrent (a : Accrual) (now refresh : Nat) : Bool :=
  a.computedAt.any fun computed => now - computed < refresh

def refreshed (a : Accrual) (now refresh : Nat) (used : Resource) : Accrual :=
  if a.isCurrent now refresh then a
  else
    let charged := a.charge now used
    { charged with
      computedAt := some now
      report := (charged.memorySeconds.toUInt64, charged.vcoreSeconds.toUInt64) }

end Accrual
end ClusterLedger
