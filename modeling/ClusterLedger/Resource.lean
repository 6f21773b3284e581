/- Resources in two dimensions of fixed width.
   Every operation clamps at the ends of its width; none wraps. -/
namespace ClusterLedger

structure Resource where
  memoryMb : UInt64
  vcores : UInt32
deriving DecidableEq, Repr, Inhabited

namespace Resource

def zero : Resource := ⟨0, 0⟩

def isZero (r : Resource) : Bool := r.memoryMb == 0 && r.vcores == 0

def fitsIn (r whole : Resource) : Bool :=
  r.memoryMb ≤ whole.memoryMb && r.vcores ≤ whole.vcores

def add (a b : Resource) : Resource :=
  ⟨.ofNatClamp (a.memoryMb.toNat + b.memoryMb.toNat), .ofNatClamp (a.vcores.toNat + b.vcores.toNat)⟩

def sub (a b : Resource) : Resource :=
  ⟨.ofNatClamp (a.memoryMb.toNat - b.memoryMb.toNat), .ofNatClamp (a.vcores.toNat - b.vcores.toNat)⟩

instance : Add Resource := ⟨add⟩
instance : Sub Resource := ⟨sub⟩

def times (r : Resource) (count : UInt32) : Resource :=
  ⟨.ofNatClamp (r.memoryMb.toNat * count.toNat), .ofNatClamp (r.vcores.toNat * count.toNat)⟩

/-- A share of the resource, cut to whole units and clamped. -/
def scale (r : Resource) (share : Float) : Resource :=
  ⟨(r.memoryMb.toFloat * share).toUInt64, (r.vcores.toFloat * share).toUInt32⟩

def sum (items : List Resource) : Resource := items.foldl (· + ·) zero

instance : ToString Resource :=
  ⟨fun r => s!"<memory:{r.memoryMb}, vCores:{r.vcores}>"⟩

end Resource
end ClusterLedger
