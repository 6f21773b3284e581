/- Finite tables with strictly ascending keys.
   The order is part of the type, so a table is determined by what its look-ups answer. -/
namespace ClusterLedger
open Std

/-- Entries in strictly ascending key order; no key occurs twice. -/
structure Table (κ : Type u) (ν : Type v) [Ord κ] where
  entries : List (κ × ν)
  ascending : entries.Pairwise fun a b => compare a.1 b.1 = .lt

namespace Table
variable {κ : Type u} {ν : Type v} [Ord κ]

instance [DecidableEq κ] [DecidableEq ν] : DecidableEq (Table κ ν) := fun a b =>
  decidable_of_iff (a.entries = b.entries) (by cases a; cases b; simp)

instance [Repr κ] [Repr ν] : Repr (Table κ ν) := ⟨fun t p => reprPrec t.entries p⟩

def empty : Table κ ν := ⟨[], .nil⟩

instance : EmptyCollection (Table κ ν) := ⟨empty⟩
instance : Inhabited (Table κ ν) := ⟨∅⟩

def find (k : κ) : List (κ × ν) → Option ν
  | [] => none
  | (k', v) :: rest => if compare k k' = .eq then some v else find k rest

def place (k : κ) (v : ν) : List (κ × ν) → List (κ × ν)
  | [] => [(k, v)]
  | (k', v') :: rest =>
    match compare k k' with
    | .lt => (k, v) :: (k', v') :: rest
    | .eq => (k, v) :: rest
    | .gt => (k', v') :: place k v rest

theorem mem_place {k : κ} {v : ν} {e : κ × ν} {l : List (κ × ν)} (h : e ∈ place k v l) :
    e = (k, v) ∨ e ∈ l := by
  induction l with
  | nil => simpa [place] using h
  | cons hd tl ih =>
    obtain ⟨k', v'⟩ := hd
    rw [place] at h
    split at h <;> grind

theorem place_ascending [TransOrd κ] [LawfulEqOrd κ] (k : κ) (v : ν) {l : List (κ × ν)}
    (h : l.Pairwise fun a b => compare a.1 b.1 = .lt) :
    (place k v l).Pairwise fun a b => compare a.1 b.1 = .lt := by
  induction l with
  | nil => simp [place]
  | cons hd tl ih =>
    obtain ⟨k', v'⟩ := hd
    obtain ⟨below, rest⟩ := List.pairwise_cons.mp h
    rw [place]
    split
    · rename_i lt
      refine List.pairwise_cons.mpr ⟨fun e he => ?_, h⟩
      rcases List.mem_cons.mp he with same | member
      · simpa [same] using lt
      · exact TransCmp.lt_trans lt (below e member)
    · rename_i same
      obtain rfl := LawfulEqCmp.eq_of_compare same
      exact List.pairwise_cons.mpr ⟨below, rest⟩
    · rename_i gt
      refine List.pairwise_cons.mpr ⟨fun e he => ?_, ih rest⟩
      rcases mem_place he with same | member
      · simpa [same] using OrientedCmp.lt_of_gt gt
      · exact below e member

def get? (t : Table κ ν) (k : κ) : Option ν := find k t.entries

def contains (t : Table κ ν) (k : κ) : Bool := (t.get? k).isSome

def insert [TransOrd κ] [LawfulEqOrd κ] (t : Table κ ν) (k : κ) (v : ν) : Table κ ν :=
  ⟨place k v t.entries, place_ascending k v t.ascending⟩

def filter (t : Table κ ν) (p : κ → ν → Bool) : Table κ ν :=
  ⟨t.entries.filter fun e => p e.1 e.2, t.ascending.filter _⟩

def erase (t : Table κ ν) (k : κ) : Table κ ν := t.filter fun k' _ => compare k k' != .eq

def modify [TransOrd κ] [LawfulEqOrd κ] (t : Table κ ν) (k : κ) (f : ν → ν) : Table κ ν :=
  match t.get? k with
  | some v => t.insert k (f v)
  | none => t

def ofList [TransOrd κ] [LawfulEqOrd κ] (l : List (κ × ν)) : Table κ ν :=
  l.foldl (fun t e => t.insert e.1 e.2) ∅

def keys (t : Table κ ν) : List κ := t.entries.map (·.1)
def values (t : Table κ ν) : List ν := t.entries.map (·.2)
def size (t : Table κ ν) : Nat := t.entries.length
def isEmpty (t : Table κ ν) : Bool := t.entries.isEmpty

@[ext] theorem ext {a b : Table κ ν} (h : a.entries = b.entries) : a = b := by
  cases a; cases b; simp_all

theorem find_place [TransOrd κ] [LawfulEqOrd κ] (k k' : κ) (v : ν) (l : List (κ × ν)) :
    find k' (place k v l) = if compare k' k = .eq then some v else find k' l := by
  induction l with
  | nil => rfl
  | cons hd tl ih =>
    obtain ⟨h, w⟩ := hd
    rw [place]
    split
    · rfl
    · rename_i same
      obtain rfl := LawfulEqCmp.eq_of_compare same
      simp only [find]
      split <;> rfl
    · rename_i gt
      simp only [find, ih]
      by_cases atHead : compare k' h = .eq
      · obtain rfl := LawfulEqCmp.eq_of_compare atHead
        have ne : compare k' k ≠ .eq := by
          intro same
          obtain rfl := LawfulEqCmp.eq_of_compare same
          simp at gt
        simp [ne]
      · simp [atHead]

@[simp] theorem get?_empty (k : κ) : (∅ : Table κ ν).get? k = none := rfl

theorem get?_insert [TransOrd κ] [LawfulEqOrd κ] (t : Table κ ν) (k k' : κ) (v : ν) :
    (t.insert k v).get? k' = if compare k' k = .eq then some v else t.get? k' :=
  find_place k k' v t.entries

@[simp] theorem get?_insert_self [TransOrd κ] [LawfulEqOrd κ] (t : Table κ ν) (k : κ) (v : ν) :
    (t.insert k v).get? k = some v := by
  simp [get?_insert]

theorem find_filter_ne [TransOrd κ] [LawfulEqOrd κ] (k k' : κ) (l : List (κ × ν)) :
    find k' (l.filter fun e => compare k e.1 != .eq) =
      if compare k' k = .eq then none else find k' l := by
  induction l with
  | nil => simp [find]
  | cons hd tl ih =>
    obtain ⟨h, w⟩ := hd
    by_cases same : compare k h = .eq
    · obtain rfl := LawfulEqCmp.eq_of_compare same
      by_cases asked : compare k' k = .eq <;> simp [find, ih, asked]
    · by_cases asked : compare k' h = .eq
      · obtain rfl := LawfulEqCmp.eq_of_compare asked
        have ne : compare k' k ≠ .eq := by
          intro e
          obtain rfl := LawfulEqCmp.eq_of_compare e
          exact same e
        simp [find, same, ne]
      · simp [find, ih, same, asked]

theorem get?_erase [TransOrd κ] [LawfulEqOrd κ] (t : Table κ ν) (k k' : κ) :
    (t.erase k).get? k' = if compare k' k = .eq then none else t.get? k' :=
  find_filter_ne k k' t.entries

end Table
end ClusterLedger
