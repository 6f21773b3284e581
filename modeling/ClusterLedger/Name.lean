/- Names of the things a ledger keeps books on, and request priorities.
   Names of different kinds do not mix; all are ordered by code point. -/
namespace ClusterLedger
open Std

inductive NameKind
  | node
  | attempt
  | container
  | queue
deriving DecidableEq, Repr

structure Name (kind : NameKind) where
  text : String
deriving DecidableEq, Repr, Inhabited

namespace Name
variable {kind : NameKind}

instance : Ord (Name kind) := ⟨compareOn text⟩

instance : TransOrd (Name kind) :=
  inferInstanceAs (TransCmp (compareOn fun name : Name kind => name.text))

instance : LawfulEqOrd (Name kind) where
  eq_of_compare {a b} same := by
    obtain ⟨a⟩ := a
    obtain ⟨b⟩ := b
    exact congrArg mk (LawfulEqCmp.eq_of_compare (show compare a b = .eq from same))

instance : ToString (Name kind) := ⟨text⟩

end Name

abbrev NodeId := Name .node
abbrev AttemptId := Name .attempt
abbrev ContainerId := Name .container
abbrev QueueName := Name .queue

/-- A part of the cluster under one label. Nodes without a label form the default partition. -/
abbrev Partition := String

namespace Partition

def default : Partition := ""

def display (partition : Partition) : String :=
  if partition = default then "<DEFAULT_PARTITION>" else partition

end Partition

def anyPlace : String := "*"

/-- Smaller levels are served first. -/
structure Priority where
  level : Int32
deriving DecidableEq, Repr, Inhabited

namespace Priority

instance : Ord Priority := ⟨compareOn level⟩

instance : TransOrd Priority := inferInstanceAs (TransCmp (compareOn level))

instance : LawfulEqOrd Priority where
  eq_of_compare {a b} same := by
    obtain ⟨a⟩ := a
    obtain ⟨b⟩ := b
    exact congrArg mk (LawfulEqCmp.eq_of_compare (show compare a b = .eq from same))

/-- Carried by requests that the scheduler makes on its own account. -/
def undefined : Priority := ⟨-1⟩

end Priority
end ClusterLedger
