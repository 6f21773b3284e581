import ClusterLedger.Table
import ClusterLedger.Name
/- Marks on containers that the scheduler wants back. A container has at most one mark, and a mark
   leaves the set when it is delivered or when its container ends. -/
namespace ClusterLedger

structure Marks where
  table : Table ContainerId Unit := ∅
deriving DecidableEq, Repr, Inhabited

namespace Marks

def has (m : Marks) (id : ContainerId) : Bool := m.table.contains id

def ids (m : Marks) : List ContainerId := m.table.keys

def isEmpty (m : Marks) : Bool := m.table.isEmpty

def ofIds (ids : List ContainerId) : Marks := ⟨.ofList (ids.map (·, ()))⟩

def mark (m : Marks) (id : ContainerId) : Bool × Marks := (!m.has id, ⟨m.table.insert id ()⟩)

def unmark (m : Marks) (id : ContainerId) : Bool × Marks := (m.has id, ⟨m.table.erase id⟩)

def drain (m : Marks) : Marks × Marks := (m, {})

theorem has_mark (m : Marks) (id other : ContainerId) :
    (m.mark id).2.has other = (decide (other = id) || m.has other) := by
  simp only [mark, has, Table.contains, Table.get?_insert, Std.LawfulEqCmp.compare_eq_iff_eq]
  split <;> simp_all

theorem has_unmark (m : Marks) (id other : ContainerId) :
    (m.unmark id).2.has other = (decide (other ≠ id) && m.has other) := by
  simp only [unmark, has, Table.contains, Table.get?_erase, Std.LawfulEqCmp.compare_eq_iff_eq]
  split <;> simp_all

end Marks
end ClusterLedger
