import ClusterLedger.Resource
/- Two ways to order resources and to divide one by another within a cluster. -/
namespace ClusterLedger

/-- `memoryOnly` looks at memory; `dominant` judges a resource by its largest share of the cluster. -/
inductive Calculator
  | memoryOnly
  | dominant
deriving DecidableEq, Repr, Inhabited

namespace Calculator

def compareShares (x y : Float) : Option Ordering :=
  if x < y then some .lt
  else if x == y then some .eq
  else if y < x then some .gt
  else none

/-- The larger share of the cluster first. A dimension that the cluster lacks counts as nothing. -/
def shares (cluster r : Resource) : Float × Float :=
  let memory := if cluster.memoryMb == 0 then 0.0 else r.memoryMb.toFloat / cluster.memoryMb.toFloat
  let cores := if cluster.vcores == 0 then 0.0 else r.vcores.toFloat / cluster.vcores.toFloat
  if memory ≥ cores then (memory, cores) else (cores, memory)

def isInvalidDivisor : Calculator → Resource → Bool
  | memoryOnly, r => r.memoryMb == 0
  | dominant, r => r.memoryMb == 0 || r.vcores == 0

/-- The order without shares: a dimension decides when the other agrees with it or is a tie. -/
def compareDimensions (a b : Resource) : Ordering :=
  let memory := compare a.memoryMb b.memoryMb
  let cores := compare a.vcores b.vcores
  if memory = cores ∨ cores = .eq then memory
  else if memory = .eq then cores
  else .eq

def compareByShares (cluster a b : Resource) : Ordering :=
  let (larger, smaller) := shares cluster a
  let (larger', smaller') := shares cluster b
  match compareShares larger larger' with
  | some .lt => .lt
  | some .gt => .gt
  | _ => (compareShares smaller smaller').getD .eq

def compare (calculator : Calculator) (cluster a b : Resource) : Ordering :=
  match calculator with
  | memoryOnly => Ord.compare a.memoryMb b.memoryMb
  | dominant =>
    if a = b then .eq
    else if isInvalidDivisor dominant cluster then compareDimensions a b
    else compareByShares cluster a b

def atMost (calculator : Calculator) (cluster a b : Resource) : Bool :=
  calculator.compare cluster a b != .gt

def atLeast (calculator : Calculator) (cluster a b : Resource) : Bool :=
  calculator.compare cluster a b != .lt

def divide (calculator : Calculator) (cluster amount unit : Resource) : Float :=
  match calculator with
  | memoryOnly =>
    if isInvalidDivisor memoryOnly unit then 0.0
    else amount.memoryMb.toFloat / unit.memoryMb.toFloat
  | dominant =>
    let share := (shares cluster unit).1
    if share == 0.0 then 0.0 else (shares cluster amount).1 / share

end Calculator

/-- The least whole count that is not below `x`, clamped to its width. -/
def wholeCount (x : Float) : UInt32 :=
  let cut := x.toUInt64
  .ofNatClamp (if cut.toFloat < x then cut.toNat + 1 else cut.toNat)

end ClusterLedger
