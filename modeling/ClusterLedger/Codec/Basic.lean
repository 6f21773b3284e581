import ClusterLedger.Document
import ClusterLedger.Table
import ClusterLedger.Name
/- Numbers, texts, lists and tables in documents. -/
namespace ClusterLedger
open Std

instance : Encodable Bool := ⟨.bool⟩

instance : Decodable Bool where
  decode _ d := match d with
    | .bool b => some b
    | _ => none

instance : Encodable String := ⟨.text⟩

instance : Decodable String where
  decode _ d := match d with
    | .text s => some s
    | _ => none

instance : Encodable Nat := ⟨fun n => .int n⟩

instance : Decodable Nat where
  decode _ d := match d with
    | .int n => if 0 ≤ n ∧ n < UInt64.size then some n.toNat else none
    | _ => none

instance : Encodable UInt64 := ⟨fun n => .int n.toNat⟩

instance : Decodable UInt64 where
  decode _ d := match d with
    | .int n => if 0 ≤ n ∧ n < UInt64.size then some (.ofNat n.toNat) else none
    | _ => none

instance : Encodable UInt32 := ⟨fun n => .int n.toNat⟩

instance : Decodable UInt32 where
  decode _ d := match d with
    | .int n => if 0 ≤ n ∧ n < UInt32.size then some (.ofNat n.toNat) else none
    | _ => none

instance : Encodable Int32 := ⟨fun n => .int n.toInt⟩

instance : Decodable Int32 where
  decode _ d := match d with
    | .int n => if -2147483648 ≤ n ∧ n < 2147483648 then some (.ofInt n) else none
    | _ => none

instance : Encodable Float := ⟨.float⟩

instance : Decodable Float where
  decode _ d := match d with
    | .float x => some x
    | .int n => some (.ofInt n)
    | _ => none

instance [Encodable α] : Encodable (Option α) where
  encode
    | some x => encode x
    | none => .null

instance [Decodable α] : Decodable (Option α) where
  decode dialect d := match d with
    | .null => some none
    | d => (decode dialect d).map some

instance [Encodable α] : Encodable (List α) := ⟨fun items => .list (items.map encode)⟩

instance [Decodable α] : Decodable (List α) where
  decode dialect d := match d with
    | .list items => items.mapM (decode dialect)
    | _ => none

class FieldName (κ : Type u) where
  toField : κ → String
  ofField : String → κ

instance : FieldName String := ⟨id, id⟩
instance : FieldName (Name kind) := ⟨Name.text, Name.mk⟩

instance [Ord κ] [FieldName κ] [Encodable ν] : Encodable (Table κ ν) where
  encode t := .object (t.entries.map fun e => (FieldName.toField e.1, encode e.2))

instance [Ord κ] [TransOrd κ] [LawfulEqOrd κ] [FieldName κ] [Decodable ν] :
    Decodable (Table κ ν) where
  decode dialect d := match d with
    | .object fields =>
      (fields.mapM fun f => (decode dialect f.2).map (FieldName.ofField f.1, ·)).map .ofList
    | _ => none

instance : Encodable (Name kind) := ⟨fun n => .text n.text⟩

instance : Decodable (Name kind) where
  decode dialect d := (decode dialect d).map Name.mk

instance : Encodable Priority := ⟨fun p => encode p.level⟩

instance : Decodable Priority where
  decode dialect d := (decode dialect d).map Priority.mk

end ClusterLedger
