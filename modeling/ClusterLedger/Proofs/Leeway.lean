import ClusterLedger.Codec.Basic
import ClusterLedger.Proofs.JsonText
import ClusterLedger.Proofs.Table
import Mathlib.Data.List.Forall2
/- What may vary in a document without changing what it says. An object that stands for a structure
   may have fields that the structure does not know, and lack fields that say what their absence
   says. An object that stands for a table has its keys for names, so nothing may be added to it. -/
namespace ClusterLedger
open Std

/-- A field of a structure, and what its absence would say, if it may be absent. -/
structure Part (σ : Type) where
  name : String
  shape : σ
  absent : Option Document := none

inductive Shape
  | whole
  | perhaps (inner : Shape)
  | each (inner : Shape)
  | keyed (inner : Shape)
  | record (parts : List (Part Shape))

mutual

/-- The first document is written in full; the second one uses the leeway that its shape leaves. -/
inductive Varies : Shape → Document → Document → Prop
  | same {d} (simple : Json.Plain 0 d) : Varies .whole d d
  | missing {inner} : Varies (.perhaps inner) .null .null
  | given {inner d d'} : d ≠ .null → d' ≠ .null → Varies inner d d' → Varies (.perhaps inner) d d'
  | list {inner items items'} : VariesAll inner items items' →
      Varies (.each inner) (.list items) (.list items')
  | table {inner fields fields'} : (fields.map (·.1)).Nodup → VariesEntries inner fields fields' →
      Varies (.keyed inner) (.object fields) (.object fields')
  | structure_ {parts fields fields'} : (parts.map (·.name)).Nodup →
      VariesFields (parts.map (·.name)) parts fields fields' →
      Varies (.record parts) (.object fields) (.object fields')

inductive VariesAll : Shape → List Document → List Document → Prop
  | nil {inner} : VariesAll inner [] []
  | cons {inner d d' items items'} : Varies inner d d' → VariesAll inner items items' →
      VariesAll inner (d :: items) (d' :: items')

inductive VariesEntries : Shape → List (String × Document) → List (String × Document) → Prop
  | nil {inner} : VariesEntries inner [] []
  | cons {inner key d d' fields fields'} : Varies inner d d' → VariesEntries inner fields fields' →
      VariesEntries inner ((key, d) :: fields) ((key, d') :: fields')

/-- Fields are kept or left out one after another, and unknown ones may stand anywhere. A field is
    left out only where its absence says what was written in it. -/
inductive VariesFields : List String → List (Part Shape) → List (String × Document) →
    List (String × Document) → Prop
  | done {known} : VariesFields known [] [] []
  | keep {known part parts d d' fields fields'} : Varies part.shape d d' →
      VariesFields known parts fields fields' →
      VariesFields known (part :: parts) ((part.name, d) :: fields) ((part.name, d') :: fields')
  | leave {known part parts d fields fields'} : part.absent = some d → Varies part.shape d d →
      VariesFields known parts fields fields' →
      VariesFields known (part :: parts) ((part.name, d) :: fields) fields'
  | add {known parts name d fields fields'} : name ∉ known →
      VariesFields known parts fields fields' →
      VariesFields known parts fields ((name, d) :: fields')

end

/-- Values of the type are written in one shape, and read from whatever uses its leeway. -/
class Schema (α : Type) [Encodable α] [Decodable α] where
  shape : Shape
  conforms : ∀ x : α, Varies shape (encode x) (encode x)
  reads : ∀ (dialect : Dialect) {x : α} {d : Document}, Varies shape (encode x) d →
    decode dialect d = some x

export Schema (shape)

class NeverNull (α : Type) [Encodable α] : Prop where
  given : ∀ x : α, encode x ≠ .null

section Levels

mutual

def Shape.height : Shape → Nat
  | .whole => 0
  | .perhaps inner => inner.height
  | .each inner => inner.height + 1
  | .keyed inner => inner.height + 1
  | .record parts => heights parts + 1

def heights : List (Part Shape) → Nat
  | [] => 0
  | ⟨_, shape, _⟩ :: parts => max shape.height (heights parts)

end

theorem VariesFields.names : ∀ {known parts fields fields'},
    VariesFields known parts fields fields' → fields.map (·.1) = parts.map (·.name)
  | _, _, _, _, .done => rfl
  | _, _, _, _, .keep _ rest => congrArg (_ :: ·) rest.names
  | _, _, _, _, .leave _ _ rest => congrArg (_ :: ·) rest.names
  | _, _, _, _, .add _ rest => rest.names

theorem heights_cons (part : Part Shape) (parts : List (Part Shape)) :
    heights (part :: parts) = max part.shape.height (heights parts) := by
  cases part
  rw [heights]

mutual

theorem Varies.plain : ∀ {s d d'}, Varies s d d' → Json.Plain s.height d
  | _, _, _, .same simple => simple
  | _, _, _, .missing => .null
  | _, _, _, .given _ _ varied => varied.plain
  | _, _, _, .list varied => .list varied.plain
  | _, _, _, .table distinct varied => .object distinct varied.plain
  | _, _, _, .structure_ distinct varied => .object (varied.names.symm ▸ distinct) varied.plain

theorem VariesAll.plain : ∀ {s items items'}, VariesAll s items items' →
    ∀ d ∈ items, Json.Plain s.height d
  | _, _, _, .nil => fun _ member => absurd member List.not_mem_nil
  | _, _, _, .cons first rest => fun d member =>
    (List.mem_cons.mp member).elim (fun same => same ▸ first.plain) (rest.plain d)

theorem VariesEntries.plain : ∀ {s fields fields'}, VariesEntries s fields fields' →
    ∀ f ∈ fields, Json.Plain s.height f.2
  | _, _, _, .nil => fun _ member => absurd member List.not_mem_nil
  | _, _, _, .cons first rest => fun f member =>
    (List.mem_cons.mp member).elim (fun same => same ▸ first.plain) (rest.plain f)

theorem VariesFields.plain : ∀ {known parts fields fields'},
    VariesFields known parts fields fields' → ∀ f ∈ fields, Json.Plain (heights parts) f.2
  | _, _, _, _, .done => fun _ member => absurd member List.not_mem_nil
  | _, _, _, _, .keep varied rest | _, _, _, _, .leave _ varied rest => fun f member =>
    (List.mem_cons.mp member).elim
      (fun same => same ▸ varied.plain.mono (heights_cons .. ▸ Nat.le_max_left ..))
      fun later => (rest.plain f later).mono (heights_cons .. ▸ Nat.le_max_right ..)
  | _, _, _, _, .add _ rest => rest.plain

end

end Levels

section Fields
open Document

inductive Found (part : Part Shape) (d : Document) : Option Document → Prop
  | kept {d'} : Varies part.shape d d' → Found part d (some d')
  | left : part.absent = some d → Found part d none

theorem field?_other {name other : String} (d : Document) (fields : List (String × Document))
    (apart : other ≠ name) : field? name ((other, d) :: fields) = field? name fields := by
  rw [field?, if_neg apart]

theorem found_behind {parts : List (Part Shape)} {fields fields' : List (String × Document)}
    {name : String} (d : Document) (other : name ∉ parts.map (·.name))
    (found : List.Forall₂ (fun part f => Found part f.2 (field? part.name fields')) parts fields) :
    List.Forall₂ (fun part f => Found part f.2 (field? part.name ((name, d) :: fields'))) parts
      fields := by
  have same : ∀ part ∈ parts, field? part.name ((name, d) :: fields') = field? part.name fields' :=
    fun part member => field?_other d fields' fun same =>
      other (same ▸ List.mem_map_of_mem (f := (·.name)) member)
  exact ((List.forall₂_and_left parts fields).mpr ⟨same, found⟩).imp fun _ _ both =>
    both.1 ▸ both.2

theorem field_absent {name : String} : ∀ {known parts fields fields'},
    VariesFields known parts fields fields' → name ∈ known → name ∉ parts.map (·.name) →
      field? name fields' = none
  | _, _, _, _, .done, _, _ => rfl
  | _, _, _, _, .keep _ rest, member, other => by
    obtain ⟨apart, later⟩ := not_or.mp (List.mem_cons.not.mp other)
    rw [field?_other _ _ (Ne.symm apart)]
    exact field_absent rest member later
  | _, _, _, _, .leave _ _ rest, member, other =>
    field_absent rest member fun later => other (List.mem_cons_of_mem _ later)
  | _, _, _, _, .add unknown rest, member, other => by
    rw [field?_other]
    · exact field_absent rest member other
    · rintro rfl
      exact unknown member

theorem fields_found : ∀ {known parts fields fields'}, VariesFields known parts fields fields' →
    parts.map (·.name) ⊆ known → (parts.map (·.name)).Nodup →
      List.Forall₂ (fun part f => Found part f.2 (field? part.name fields')) parts fields
  | _, _, _, _, .done, _, _ => .nil
  | _, _, _, _, .keep varied rest, known, distinct => by
    obtain ⟨other, distinct⟩ := List.nodup_cons.mp distinct
    have later := fields_found rest (fun _ member => known (List.mem_cons_of_mem _ member)) distinct
    refine .cons ?_ (found_behind _ other later)
    rw [field?, if_pos rfl]
    exact .kept varied
  | _, _, _, _, .leave absent _ rest, known, distinct => by
    obtain ⟨other, distinct⟩ := List.nodup_cons.mp distinct
    have later := fields_found rest (fun _ member => known (List.mem_cons_of_mem _ member)) distinct
    refine .cons ?_ later
    rw [field_absent rest (known List.mem_cons_self) other]
    exact .left absent
  | _, _, _, _, .add unknown rest, known, distinct =>
    found_behind _ (fun member => unknown (known member)) (fields_found rest known distinct)

theorem Varies.found {parts : List (Part Shape)} {fields : List (String × Document)} {d : Document}
    (varies : Varies (.record parts) (.object fields) d) :
    ∃ fields', d = .object fields' ∧
      List.Forall₂ (fun part f => Found part f.2 (field? part.name fields')) parts fields := by
  cases varies with
  | structure_ distinct varied => exact ⟨_, rfl, fields_found varied (List.Subset.refl _) distinct⟩

section Parts
variable {α : Type} [Encodable α] [Decodable α] [Schema α] {name : String} {x absent : α}
  {given : Option Document} (dialect : Dialect)

def part (α : Type) [Encodable α] [Decodable α] [Schema α] (name : String) : Part Shape :=
  { name, shape := shape α }

def partOr (absent : α) (name : String) : Part Shape :=
  { name, shape := shape α, absent := some (encode absent) }

omit dialect in
@[simp] theorem part_name : (part α name).name = name := rfl

omit dialect in
@[simp] theorem partOr_name : (partOr absent name).name = name := rfl

theorem decode_encode (x : α) : decode dialect (encode x) = some x :=
  Schema.reads dialect (Schema.conforms x)

theorem encode_inj {x y : α} (same : encode x = encode y) : x = y := by
  have read := decode_encode Json.dialect x
  rw [same, decode_encode] at read
  exact (Option.some.inj read).symm

theorem Found.required (found : Found (part α name) (encode x) given) :
    required dialect given = some x := by
  cases found with
  | kept varied => exact Schema.reads dialect varied
  | left nothing => simp [part] at nothing

theorem Found.optional (found : Found (partOr absent name) (encode x) given) :
    optional dialect absent given = some x := by
  cases found with
  | kept varied => exact Schema.reads dialect varied
  | left same => exact congrArg some (encode_inj (Option.some.inj same))

end Parts
end Fields

section Values

@[reducible] def Schema.single {α : Type} [Encodable α] [Decodable α]
    (plain : ∀ x : α, Json.Plain 0 (encode x))
    (reread : ∀ dialect (x : α), decode dialect (encode x) = some x) : Schema α where
  shape := .whole
  conforms x := .same (plain x)
  reads dialect {x d} varies := by
    cases varies
    exact reread dialect x

instance : Schema Bool := .single (fun b => .bool b) fun _ _ => rfl

instance : Schema String := .single (fun s => .text s) fun _ _ => rfl

section Numbers
variable (dialect : Dialect)

theorem uint64_plain (n : UInt64) : Json.Plain 0 (encode n) :=
  .int (by omega) (by have := n.toNat_lt; omega)

theorem uint64_reread (n : UInt64) : decode dialect (encode n) = some n := by
  have bound := n.toNat_lt
  simp [decode, encode]
  omega

instance : Schema UInt64 := .single uint64_plain uint64_reread

theorem uint32_plain (n : UInt32) : Json.Plain 0 (encode n) :=
  .int (by omega) (by have := n.toNat_lt; omega)

theorem uint32_reread (n : UInt32) : decode dialect (encode n) = some n := by
  have bound := n.toNat_lt
  simp [decode, encode]
  omega

instance : Schema UInt32 := .single uint32_plain uint32_reread

theorem int32_plain (n : Int32) : Json.Plain 0 (encode n) :=
  .int (by have := n.le_toInt; omega) (by have := n.toInt_lt; omega)

theorem int32_reread (n : Int32) : decode dialect (encode n) = some n := by
  have least := n.le_toInt
  have most := n.toInt_lt
  simp [decode, encode]
  omega

instance : Schema Int32 := .single int32_plain int32_reread

end Numbers

instance {kind : NameKind} : Schema (Name kind) := .single (fun n => .text n.text) fun _ _ => rfl

instance : Schema Priority := .single (fun p => int32_plain p.level) fun dialect p => by
  change (decode dialect (encode p.level)).map Priority.mk = some p
  rw [decode_encode]
  rfl

section Lists
variable {α : Type} [Encodable α] [Decodable α] [Schema α]

instance [NeverNull α] : Schema (Option α) where
  shape := .perhaps (shape α)
  conforms
    | none => .missing
    | some x => .given (NeverNull.given x) (NeverNull.given x) (Schema.conforms x)
  reads dialect {x d} varies := by
    cases x with
    | none =>
      generalize written : encode (none : Option α) = full at varies
      cases varies with
      | missing => rfl
      | given there => exact absurd written.symm there
    | some x =>
      generalize written : encode (some x) = full at varies
      cases varies with
      | missing => exact absurd written (NeverNull.given x)
      | given _ there varied =>
        subst written
        have read := Schema.reads dialect varied
        cases d with
        | null => exact absurd rfl there
        | _ => exact congrArg (·.map some) read

theorem all_conform (items : List α) :
    VariesAll (shape α) (items.map encode) (items.map encode) := by
  induction items with
  | nil => exact .nil
  | cons x items ih => exact .cons (Schema.conforms x) ih

theorem all_read (dialect : Dialect) {items : List α} {documents : List Document}
    (varies : VariesAll (shape α) (items.map encode) documents) :
    documents.mapM (decode dialect) = some items := by
  induction items generalizing documents with
  | nil =>
    cases varies
    rfl
  | cons x items ih =>
    cases varies with
    | cons first rest =>
      rw [List.mapM_cons, Schema.reads dialect first, ih rest]
      rfl

instance : Schema (List α) where
  shape := .each (shape α)
  conforms items := .list (all_conform items)
  reads dialect {x d} varies := by
    cases varies with
    | list varied => exact all_read dialect varied

end Lists

section Tables
variable {kind : NameKind} {ν : Type} [Encodable ν] [Decodable ν] [Schema ν]

omit [Decodable ν] [Schema ν] in
theorem entry_names_distinct (t : Table (Name kind) ν) :
    ((t.entries.map fun e => (e.1.text, encode e.2)).map (·.1)).Nodup := by
  rw [List.map_map]
  refine List.pairwise_map.mpr (t.ascending.imp fun {a b} less same => ?_)
  have same : a.1.text = b.1.text := same
  rw [show a.1 = b.1 from congrArg Name.mk same] at less
  simp at less

theorem entries_conform (entries : List (Name kind × ν)) :
    VariesEntries (shape ν) (entries.map fun e => (e.1.text, encode e.2))
      (entries.map fun e => (e.1.text, encode e.2)) := by
  induction entries with
  | nil => exact .nil
  | cons e entries ih => exact .cons (Schema.conforms e.2) ih

theorem entries_read (dialect : Dialect) {entries : List (Name kind × ν)}
    {fields : List (String × Document)}
    (varies : VariesEntries (shape ν) (entries.map fun e => (e.1.text, encode e.2)) fields) :
    fields.mapM (fun f => (decode dialect f.2).map (Name.mk f.1, ·)) = some entries := by
  induction entries generalizing fields with
  | nil =>
    cases varies
    rfl
  | cons e entries ih =>
    cases varies with
    | cons first rest =>
      rw [List.mapM_cons, ih rest, Schema.reads dialect first]
      rfl

instance : Schema (Table (Name kind) ν) where
  shape := .keyed (shape ν)
  conforms t := .table (entry_names_distinct t) (entries_conform t.entries)
  reads dialect {t d} varies := by
    cases varies with
    | @table _ _ fields _ varied =>
      have read := entries_read dialect varied
      change (fields.mapM fun f => (decode dialect f.2).map (Name.mk f.1, ·)).map .ofList = some t
      rw [read, Option.map_some, Table.ofList_entries]

end Tables

end Values
end ClusterLedger
