import ClusterLedger.Table
import ClusterLedger.Name
import ClusterLedger.Resource
/- Resource figures per partition.
   Partitions that have nothing left after a decrease leave the books. -/
namespace ClusterLedger

/-- The four figures kept for a partition. `amResource` is what the application master asked for. -/
inductive Figure
  | used
  | reserved
  | amUsed
  | amResource
deriving DecidableEq, Repr

structure Figures where
  used : Resource := .zero
  reserved : Resource := .zero
  amUsed : Resource := .zero
  amResource : Resource := .zero
deriving DecidableEq, Repr, Inhabited

namespace Figures

def get (f : Figures) : Figure → Resource
  | .used => f.used
  | .reserved => f.reserved
  | .amUsed => f.amUsed
  | .amResource => f.amResource

def set (f : Figures) (figure : Figure) (r : Resource) : Figures :=
  match figure with
  | .used => { f with used := r }
  | .reserved => { f with reserved := r }
  | .amUsed => { f with amUsed := r }
  | .amResource => { f with amResource := r }

theorem get_set (f : Figures) (figure other : Figure) (r : Resource) :
    (f.set figure r).get other = if other = figure then r else f.get other := by
  cases figure <;> cases other <;> rfl

@[simp] theorem get_blank (figure : Figure) : ({} : Figures).get figure = .zero := by
  cases figure <;> rfl

end Figures

structure Usage where
  partitions : Table Partition Figures := ∅
deriving DecidableEq, Repr, Inhabited

namespace Usage

/-- A partition that is not on record has blank figures. -/
def figures (u : Usage) (p : Partition) : Figures := (u.partitions.get? p).getD {}

def get (u : Usage) (figure : Figure) (p : Partition) : Resource := (u.figures p).get figure

def assign (u : Usage) (figure : Figure) (p : Partition) (r : Resource) : Usage :=
  ⟨u.partitions.insert p ((u.figures p).set figure r)⟩

def prune (u : Usage) (p : Partition) : Usage :=
  if u.partitions.get? p = some {} then ⟨u.partitions.erase p⟩ else u

def increase (u : Usage) (figure : Figure) (p : Partition) (r : Resource) : Usage :=
  u.assign figure p (u.get figure p + r)

def decrease (u : Usage) (figure : Figure) (p : Partition) (r : Resource) : Usage :=
  (u.assign figure p (u.get figure p - r)).prune p

def transfer (u : Usage) (figure : Figure) (source target : Partition) (r : Resource) : Usage :=
  (u.decrease figure source r).increase figure target r

def total (u : Usage) (figure : Figure) : Resource :=
  .sum (u.partitions.values.map (·.get figure))

end Usage
end ClusterLedger
