import ClusterLedger.Document
/- Tables of a TOML document while it is read.
   How a table came about decides what may still be added to it. -/
namespace ClusterLedger.Toml

/-- A table has its own header, or is only on the way to one, or came from a dotted key. -/
inductive Origin
  | header
  | passage
  | dotted
deriving DecidableEq, Repr

inductive Entry where
  | value (d : Document)
  | table (origin : Origin) (fields : List (String × Entry))
  | tables (items : List (List (String × Entry)))

abbrev Fields := List (String × Entry)

def lookup? (key : String) : Fields → Option Entry
  | [] => none
  | (k, e) :: rest => if k = key then some e else lookup? key rest

def setEntry (key : String) (e : Entry) : Fields → Fields
  | [] => [(key, e)]
  | (k, old) :: rest => if k = key then (key, e) :: rest else (k, old) :: setEntry key e rest

def eraseEntry (key : String) (fields : Fields) : Fields := fields.filter (·.1 != key)

/-- Changes the table at the end of a path and makes the missing tables on the way. A dotted key
    does not lead into a table that has a header of its own. -/
def within (dotted : Bool) (change : Origin → Fields → Option (α × Fields)) :
    Origin → List String → Fields → Option (α × Fields)
  | origin, [], fields => change origin fields
  | _, key :: path, fields =>
    match lookup? key fields with
    | none => do
      let origin := if dotted then .dotted else .passage
      let (result, inner) ← within dotted change origin path []
      return (result, setEntry key (.table origin inner) fields)
    | some (.value _) => none
    | some (.table origin inner) =>
      if dotted ∧ origin = .header then none
      else do
        let (result, inner) ← within dotted change origin path inner
        return (result, setEntry key (.table origin inner) fields)
    | some (.tables items) => do
      let last ← items.getLast?
      let (result, inner) ← within dotted change .header path last
      return (result, setEntry key (.tables (items.dropLast ++ [inner])) fields)

def putValue (path : List String) (key : String) (d : Document) (fields : Fields) :
    Option Fields := do
  let put (origin : Origin) (inner : Fields) : Option (Unit × Fields) :=
    if (origin == .dotted) == path.isEmpty || (lookup? key inner).isSome then none
    else some ((), setEntry key (.value d) inner)
  let (_, fields) ← within true put .header path fields
  return fields

mutual

def Entry.toDocument : Entry → Document
  | .value d => d
  | .table _ fields => .object (fieldsToDocuments fields)
  | .tables items => .list (itemsToDocuments items)

def fieldsToDocuments : List (String × Entry) → List (String × Document)
  | [] => []
  | (key, e) :: rest => (key, e.toDocument) :: fieldsToDocuments rest

def itemsToDocuments : List (List (String × Entry)) → List Document
  | [] => []
  | fields :: rest => .object (fieldsToDocuments fields) :: itemsToDocuments rest

end

/-- A document between two lines: the table under the last header is still open. -/
structure Draft where
  root : Fields := []
  open_ : Fields := []
  path : List String := []
  repeated : Bool := false

namespace Draft

def close (d : Draft) : Option Fields :=
  match d.path.getLast? with
  | none => some d.open_
  | some key => do
    let put (_ : Origin) (fields : Fields) : Option (Unit × Fields) :=
      match d.repeated, lookup? key fields with
      | true, none => some ((), setEntry key (.tables [d.open_]) fields)
      | true, some (.tables items) => some ((), setEntry key (.tables (items ++ [d.open_])) fields)
      | false, none => some ((), setEntry key (.table .header d.open_) fields)
      | _, _ => none
    let (_, root) ← within false put .header d.path.dropLast d.root
    return root

def openTable (d : Draft) (path : List String) : Option Draft := do
  let root ← d.close
  let key ← path.getLast?
  let take (_ : Origin) (fields : Fields) : Option (Fields × Fields) :=
    match lookup? key fields with
    | none => some ([], fields)
    | some (.table .passage inner) => some (inner, eraseEntry key fields)
    | some _ => none
  let (open_, root) ← within false take .header path.dropLast root
  return { root, open_, path, repeated := false }

def openRepeated (d : Draft) (path : List String) : Option Draft := do
  let root ← d.close
  let key ← path.getLast?
  let check (_ : Origin) (fields : Fields) : Option (Unit × Fields) :=
    match lookup? key fields with
    | none => some ((), fields)
    | some (.tables _) => some ((), fields)
    | some _ => none
  let (_, root) ← within false check .header path.dropLast root
  return { root, open_ := [], path, repeated := true }

def put (d : Draft) (path : List String) (key : String) (value : Document) : Option Draft := do
  let open_ ← putValue path key value d.open_
  return { d with open_ }

end Draft
end ClusterLedger.Toml
