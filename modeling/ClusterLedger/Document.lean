/- Documents: trees of values that a text format writes down.
   Types are read from documents by shape; the rules that formats do not share are a `Dialect`. -/
namespace ClusterLedger

inductive Document where
  | null
  | bool (b : Bool)
  | int (n : Int)
  | float (x : Float)
  | text (s : String)
  | moment
  | list (items : List Document)
  | object (fields : List (String × Document))
deriving Inhabited

structure Dialect where
  /-- May a list that stands for a structure be longer than the structure? -/
  allowsSpareItems : Bool
  isBlankContent : Document → Bool

namespace Document

def field? (name : String) : List (String × Document) → Option Document
  | [] => none
  | (key, d) :: rest => if key = name then some d else field? name rest

/-- The fields of a structure: by name from an object, or the leading ones in order from a list.
    Names that the structure does not have are passed over. -/
def fields? (dialect : Dialect) (names : List String) : Document → Option (List (Option Document))
  | object fields => some (names.map (field? · fields))
  | list items =>
    if items.length ≤ names.length then
      some (items.map some ++ .replicate (names.length - items.length) none)
    else if dialect.allowsSpareItems then some ((items.take names.length).map some)
    else none
  | moment => some (names.map fun _ => none)
  | _ => none

def choice? (dialect : Dialect) : Document → Option String
  | text s => some s
  | object [(name, content)] => if dialect.isBlankContent content then some name else none
  | _ => none

end Document

class Encodable (α : Type u) where
  encode : α → Document

class Decodable (α : Type u) where
  decode : Dialect → Document → Option α

export Encodable (encode)
export Decodable (decode)

def required [Decodable α] (dialect : Dialect) : Option Document → Option α
  | some d => decode dialect d
  | none => none

def optional [Decodable α] (dialect : Dialect) (absent : α) : Option Document → Option α
  | some d => decode dialect d
  | none => some absent

end ClusterLedger
