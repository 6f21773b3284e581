import ClusterLedger.Table
import Mathlib.Algebra.BigOperators.Group.List.Basic
/- Laws of tables as wholes: which values they hold, and what one change does to the list of values.
   Values are compared up to order, which is all that sums and counts over them depend on. -/
namespace ClusterLedger.Table
open Std
variable {κ : Type u} {ν : Type v} [Ord κ]

theorem size_eq_length_values (t : Table κ ν) : t.size = t.values.length := by
  simp [size, values]

theorem filter_above {k : κ} {l : List (κ × ν)} (above : ∀ e ∈ l, compare k e.1 = .lt) :
    l.filter (fun e => compare k e.1 != .eq) = l :=
  List.filter_eq_self.mpr fun e he => by simp [above e he]

section Lawful
variable [LawfulEqOrd κ]

theorem mem_of_find {k : κ} {v : ν} {l : List (κ × ν)} (h : find k l = some v) : (k, v) ∈ l := by
  induction l with
  | nil => simp [find] at h
  | cons hd tl ih =>
    obtain ⟨k', v'⟩ := hd
    rw [find] at h
    split at h
    · rename_i same
      obtain rfl := LawfulEqCmp.eq_of_compare same
      simp_all
    · exact List.mem_cons_of_mem _ (ih h)

theorem find_of_mem {k : κ} {v : ν} {l : List (κ × ν)}
    (sorted : l.Pairwise fun a b => compare a.1 b.1 = .lt) (h : (k, v) ∈ l) :
    find k l = some v := by
  induction l with
  | nil => simp at h
  | cons hd tl ih =>
    obtain ⟨below, rest⟩ := List.pairwise_cons.mp sorted
    rcases List.mem_cons.mp h with same | later
    · subst same
      simp [find]
    · have lt := below _ later
      have ne : compare k hd.1 ≠ .eq := by
        intro same
        obtain rfl := LawfulEqCmp.eq_of_compare same
        simp at lt
      simp only [find, ne, ↓reduceIte]
      exact ih rest later

theorem mem_entries {t : Table κ ν} {k : κ} {v : ν} : (k, v) ∈ t.entries ↔ t.get? k = some v :=
  ⟨find_of_mem t.ascending, mem_of_find⟩

theorem mem_values {t : Table κ ν} {v : ν} : v ∈ t.values ↔ ∃ k, t.get? k = some v := by
  simp only [values, List.mem_map, Prod.exists, exists_eq_right, mem_entries]

theorem find_perm {k : κ} {v : ν} {l : List (κ × ν)}
    (sorted : l.Pairwise fun a b => compare a.1 b.1 = .lt) (found : find k l = some v) :
    l.Perm ((k, v) :: l.filter fun e => compare k e.1 != .eq) := by
  induction l with
  | nil => simp [find] at found
  | cons hd tl ih =>
    obtain ⟨below, rest⟩ := List.pairwise_cons.mp sorted
    rw [find] at found
    split at found
    · rename_i same
      obtain rfl := LawfulEqCmp.eq_of_compare same
      obtain rfl := Option.some.inj found
      simp [filter_above below]
    · rename_i ne
      simp only [List.filter_cons, bne_iff_ne, ne_eq, ne, not_false_eq_true, ↓reduceIte]
      exact ((ih rest found).cons hd).trans (.swap _ _ _)

theorem get?_filter {t : Table κ ν} {k : κ} {q : κ → ν → Bool} :
    (t.filter q).get? k = (t.get? k).filter (q k) := by
  refine Option.ext fun v => ?_
  rw [Option.filter_eq_some_iff, ← mem_entries, ← mem_entries]
  exact List.mem_filter

theorem eq_of_lookup [TransOrd κ] {t t' : Table κ ν} (same : ∀ k, t.get? k = t'.get? k) :
    t = t' := by
  have distinct (t : Table κ ν) : t.entries.Nodup :=
    t.ascending.imp fun {a b} lt eq => by
      subst eq
      simp at lt
  refine ext (List.Perm.eq_of_pairwise ?_ t.ascending t'.ascending ?_)
  · intro a b _ _ lt gt
    exact absurd (OrientedCmp.gt_of_lt lt) (by simp [gt])
  · refine (List.perm_ext_iff_of_nodup (distinct t) (distinct t')).mpr fun e => ?_
    obtain ⟨k, v⟩ := e
    rw [mem_entries, mem_entries, same]

theorem values_of_get? {t : Table κ ν} {k : κ} {v : ν} (found : t.get? k = some v) :
    t.values.Perm (v :: (t.erase k).values) :=
  (find_perm t.ascending found).map Prod.snd

theorem keys_of_get? {t : Table κ ν} {k : κ} {v : ν} (found : t.get? k = some v) :
    t.keys.Perm (k :: (t.erase k).keys) :=
  (find_perm t.ascending found).map Prod.fst

theorem size_erase {t : Table κ ν} {k : κ} {v : ν} (found : t.get? k = some v) :
    (t.erase k).size + 1 = t.size := by
  simpa [size_eq_length_values] using (values_of_get? found).length_eq.symm

theorem erase_of_absent {t : Table κ ν} {k : κ} (absent : t.get? k = none) : t.erase k = t := by
  refine ext (List.filter_eq_self.mpr fun e he => ?_)
  have found : t.get? e.1 = some e.2 := mem_entries.mp he
  have ne : compare k e.1 ≠ .eq := by
    intro same
    obtain rfl := LawfulEqCmp.eq_of_compare same
    simp [absent] at found
  simpa using ne

end Lawful

variable [TransOrd κ] [LawfulEqOrd κ]

theorem place_perm (k : κ) (v : ν) {l : List (κ × ν)}
    (sorted : l.Pairwise fun a b => compare a.1 b.1 = .lt) :
    (place k v l).Perm ((k, v) :: l.filter fun e => compare k e.1 != .eq) := by
  induction l with
  | nil => simp [place]
  | cons hd tl ih =>
    obtain ⟨below, rest⟩ := List.pairwise_cons.mp sorted
    rw [place]
    split
    · rename_i lt
      have above : ∀ e ∈ hd :: tl, compare k e.1 = .lt := by
        intro e he
        rcases List.mem_cons.mp he with same | later
        · simpa [same] using lt
        · exact TransCmp.lt_trans lt (below e later)
      rw [filter_above above]
    · rename_i same
      obtain rfl := LawfulEqCmp.eq_of_compare same
      simp [filter_above below]
    · rename_i gt
      simp only [List.filter_cons, gt, bne_iff_ne, ne_eq, reduceCtorEq, not_false_eq_true,
        ↓reduceIte]
      exact ((ih rest).cons hd).trans (.swap _ _ _)

theorem values_insert (t : Table κ ν) (k : κ) (v : ν) :
    (t.insert k v).values.Perm (v :: (t.erase k).values) :=
  (place_perm k v t.ascending).map Prod.snd

theorem values_insert_new {t : Table κ ν} {k : κ} (v : ν) (absent : t.get? k = none) :
    (t.insert k v).values.Perm (v :: t.values) := by
  simpa [erase_of_absent absent] using values_insert t k v

theorem keys_insert_new {t : Table κ ν} {k : κ} (v : ν) (absent : t.get? k = none) :
    (t.insert k v).keys.Perm (k :: t.keys) := by
  have inserted : (t.insert k v).keys.Perm (k :: (t.erase k).keys) :=
    (place_perm k v t.ascending).map Prod.fst
  rwa [erase_of_absent absent] at inserted

theorem size_insert (t : Table κ ν) (k : κ) (v : ν) :
    (t.insert k v).size = (t.erase k).size + 1 := by
  simpa [size_eq_length_values] using (values_insert t k v).length_eq

variable [DecidableEq κ]

@[simp] theorem lookup_insert (t : Table κ ν) (k k' : κ) (v : ν) :
    (t.insert k v).get? k' = if k' = k then some v else t.get? k' := by
  simp only [get?_insert, LawfulEqCmp.compare_eq_iff_eq]

@[simp] theorem lookup_erase (t : Table κ ν) (k k' : κ) :
    (t.erase k).get? k' = if k' = k then none else t.get? k' := by
  simp only [get?_erase, LawfulEqCmp.compare_eq_iff_eq]

@[simp] theorem lookup_modify (t : Table κ ν) (k k' : κ) (f : ν → ν) :
    (t.modify k f).get? k' = if k' = k then (t.get? k).map f else t.get? k' := by
  unfold modify
  split
  · rename_i v found
    rw [lookup_insert, found]
    rfl
  · rename_i absent
    split
    · rename_i same
      simp [same, absent]
    · rfl

theorem mem_of_ofList {l : List (κ × ν)} {k : κ} {v : ν} (found : (ofList l).get? k = some v) :
    (k, v) ∈ l := by
  have along : ∀ (l : List (κ × ν)) (t : Table κ ν),
      (l.foldl (fun t e => t.insert e.1 e.2) t).get? k = some v →
        (k, v) ∈ l ∨ t.get? k = some v := by
    intro l
    induction l with
    | nil => exact fun t found => .inr found
    | cons first rest ih =>
      intro t found
      rcases ih (t.insert first.1 first.2) found with later | here
      · exact .inl (List.mem_cons_of_mem _ later)
      · rw [lookup_insert] at here
        split at here
        · rename_i same
          obtain rfl := Option.some.inj here
          exact .inl (by simp [same])
        · exact .inr here
  refine (along l ∅ found).resolve_right fun none => ?_
  simp at none

theorem ofList_entries (t : Table κ ν) : ofList t.entries = t := by
  have along : ∀ (l : List (κ × ν)) (t : Table κ ν) (k : κ),
      l.Pairwise (fun a b => compare a.1 b.1 = .lt) →
        (l.foldl (fun t e => t.insert e.1 e.2) t).get? k = (find k l).or (t.get? k) := by
    intro l
    induction l with
    | nil => exact fun _ _ _ => rfl
    | cons first rest ih =>
      intro t k sorted
      obtain ⟨below, sorted⟩ := List.pairwise_cons.mp sorted
      rw [List.foldl_cons, ih _ k sorted, lookup_insert, find]
      by_cases here : k = first.1
      · -- No later entry has the key of the first one.
        subst here
        have once : find first.1 rest = none := by
          cases found : find first.1 rest with
          | none => rfl
          | some v =>
            have less := below _ (mem_of_find found)
            simp at less
        simp [once]
      · have other : compare k first.1 ≠ .eq := fun same => here (LawfulEqCmp.eq_of_compare same)
        simp [here, other]
  refine eq_of_lookup fun k => ?_
  rw [ofList, along t.entries ∅ k t.ascending, get?_empty, Option.or_none]
  rfl

theorem insert_same {t : Table κ ν} {k : κ} {v : ν} (found : t.get? k = some v) :
    t.insert k v = t := by
  refine eq_of_lookup fun k' => ?_
  rw [lookup_insert]
  split
  · rename_i here
    rw [here, found]
  · rfl

theorem modify_same {t : Table κ ν} {k : κ} {v : ν} {f : ν → ν} (found : t.get? k = some v)
    (same : f v = v) : t.modify k f = t := by
  refine eq_of_lookup fun k' => ?_
  rw [lookup_modify]
  split
  · rename_i here
    rw [here, found, Option.map_some, same]
  · rfl

theorem values_change {t t' : Table κ ν} {k : κ} {v v' : ν} (found : t.get? k = some v)
    (change : ∀ k', t'.get? k' = if k' = k then some v' else t.get? k') :
    ∃ others : List ν, t.values.Perm (v :: others) ∧ t'.values.Perm (v' :: others) ∧
      ∀ o ∈ others, ∃ k', k' ≠ k ∧ t.get? k' = some o := by
  have inserted : t' = t.insert k v' := eq_of_lookup fun k' => by rw [change, lookup_insert]
  refine ⟨(t.erase k).values, values_of_get? found, inserted ▸ values_insert t k v', ?_⟩
  intro o ho
  obtain ⟨k', found'⟩ := mem_values.mp ho
  rw [lookup_erase] at found'
  split at found'
  · simp at found'
  · rename_i ne
    exact ⟨k', ne, found'⟩

def enter (key : ν → κ) (t : Table κ ν) (l : List ν) : Table κ ν :=
  l.foldl (fun t v => t.insert (key v) v) t

section Enter
variable {key : ν → κ} {t : Table κ ν} {l : List ν}

theorem enter_other {k : κ} (other : k ∉ l.map key) : (t.enter key l).get? k = t.get? k := by
  induction l generalizing t with
  | nil => rfl
  | cons first l ih =>
    simp only [List.map_cons, List.mem_cons, not_or] at other
    exact (ih other.2).trans ((lookup_insert _ _ _ _).trans (if_neg other.1))

theorem enter_own (distinct : (l.map key).Nodup) {v : ν} (member : v ∈ l) :
    (t.enter key l).get? (key v) = some v := by
  induction l generalizing t with
  | nil => simp at member
  | cons first l ih =>
    obtain ⟨apart, rest⟩ := List.nodup_cons.mp distinct
    rcases List.mem_cons.mp member with rfl | later
    · exact (enter_other apart).trans (get?_insert_self _ _ _)
    · exact ih rest later

theorem enter_values (distinct : (l.map key).Nodup) (apart : ∀ v ∈ l, t.get? (key v) = none) :
    (t.enter key l).values.Perm (l ++ t.values) := by
  induction l generalizing t with
  | nil => exact .refl _
  | cons first l ih =>
    obtain ⟨own, rest⟩ := List.nodup_cons.mp distinct
    have free : ∀ v ∈ l, (t.insert (key first) first).get? (key v) = none := fun v later => by
      have other : key v ≠ key first := fun same => own (same ▸ List.mem_map_of_mem later)
      rw [lookup_insert, if_neg other]
      exact apart v (List.mem_cons_of_mem _ later)
    have inserted := values_insert_new first (apart first List.mem_cons_self)
    exact (ih rest free).trans ((inserted.append_left l).trans List.perm_middle)

end Enter

end ClusterLedger.Table
