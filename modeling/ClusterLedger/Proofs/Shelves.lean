import ClusterLedger.Attempt
import ClusterLedger.Proofs.Table
import Mathlib.Data.List.Nodup
import Mathlib.Data.Set.Card
/- Reservations as a table of tables: by priority and, at each priority, by node, as an index that is
   maintained in place would keep them. An attempt keeps one flat table of berths instead, so that
   nothing has to be pruned; the two say the same after every change, and as a priority leaves with
   its last node, a priority that is listed has a reservation. -/
namespace ClusterLedger
open Std

abbrev Shelves := Table Priority (Table NodeId RecordId)

namespace Table
variable {κ : Type u} {ν : Type v} [Ord κ]

theorem isEmpty_iff {t : Table κ ν} : t.isEmpty = true ↔ t = ∅ := by
  constructor
  · intro none
    exact ext (List.isEmpty_iff.mp none)
  · rintro rfl
    rfl

variable [LawfulEqOrd κ]

theorem isEmpty_of_lookup {t : Table κ ν} (nothing : ∀ k, t.get? k = none) : t.isEmpty = true := by
  rw [isEmpty, List.isEmpty_iff, List.eq_nil_iff_forall_not_mem]
  rintro ⟨k, v⟩ member
  rw [mem_entries, nothing] at member
  simp at member

theorem entries_nodup (t : Table κ ν) : t.entries.Nodup :=
  t.ascending.imp fun {a b} lt eq => by
    subst eq
    simp at lt

theorem keys_nodup (t : Table κ ν) : t.keys.Nodup := by
  refine List.pairwise_map.mpr (t.ascending.imp fun {a b} lt same => ?_)
  rw [same] at lt
  simp at lt

theorem mem_keys {t : Table κ ν} {k : κ} : k ∈ t.keys ↔ (t.get? k).isSome := by
  simp only [keys, List.mem_map, Prod.exists, exists_and_right, exists_eq_right, mem_entries,
    Option.isSome_iff_exists]

theorem keys_erase [DecidableEq κ] (t : Table κ ν) (k : κ) :
    (t.erase k).keys = t.keys.filter (· ≠ k) := by
  have apart : ∀ other, (compare k other != .eq) = decide (other ≠ k) := by
    intro other
    rw [Bool.eq_iff_iff, bne_iff_ne, decide_eq_true_eq, ne_eq, ne_eq,
      LawfulEqCmp.compare_eq_iff_eq, eq_comm]
  simp only [keys, erase, filter, List.filter_map, Function.comp_def, apart]

end Table

namespace Shelves

def at? (t : Shelves) (b : Berth) : Option RecordId := (t.get? b.priority).bind (·.get? b.node)

def put (t : Shelves) (b : Berth) (r : RecordId) : Shelves :=
  t.insert b.priority (((t.get? b.priority).getD ∅).insert b.node r)

/-- A priority goes with its last node. -/
def take (t : Shelves) (b : Berth) : Shelves :=
  match t.get? b.priority with
  | none => t
  | some nodes =>
    if (nodes.erase b.node).isEmpty then t.erase b.priority
    else t.insert b.priority (nodes.erase b.node)

def Full (t : Shelves) : Prop := ∀ p nodes, t.get? p = some nodes → nodes.isEmpty = false

theorem at?_put (t : Shelves) (b b' : Berth) (r : RecordId) :
    (t.put b r).at? b' = if b' = b then some r else t.at? b' := by
  obtain ⟨p, n⟩ := b
  obtain ⟨p', n'⟩ := b'
  simp only [at?, put, Table.lookup_insert, Berth.mk.injEq]
  by_cases priority : p' = p
  · subst priority
    simp only [↓reduceIte, Option.bind_some, Table.lookup_insert, true_and]
    cases t.get? p' <;> simp
  · simp [priority]

theorem at?_take (t : Shelves) (b b' : Berth) :
    (t.take b).at? b' = if b' = b then none else t.at? b' := by
  obtain ⟨p, n⟩ := b
  obtain ⟨p', n'⟩ := b'
  simp only [at?, take, Berth.mk.injEq]
  cases found : t.get? p with
  | none =>
    by_cases priority : p' = p
    · simp [priority, found]
    · simp [priority]
  | some nodes =>
    dsimp only
    by_cases priority : p' = p
    · subst priority
      have erased := nodes.lookup_erase n n'
      split
      · rename_i last
        rw [Table.isEmpty_iff.mp last, Table.get?_empty] at erased
        simp only [Table.lookup_erase, ↓reduceIte, Option.bind_none, true_and, found,
          Option.bind_some]
        exact erased
      · simp only [Table.lookup_insert, ↓reduceIte, Option.bind_some, true_and, found]
        exact erased
    · split <;> simp [priority]

theorem full_put {t : Shelves} (full : t.Full) (b : Berth) (r : RecordId) : (t.put b r).Full := by
  intro p nodes found
  rw [put, Table.lookup_insert] at found
  split at found
  · obtain rfl := Option.some.inj found
    have there : b.node ∈ (((t.get? b.priority).getD ∅).insert b.node r).keys := by
      simp [Table.mem_keys]
    refine Bool.eq_false_iff.mpr fun none => ?_
    rw [Table.isEmpty_iff.mp none] at there
    exact List.not_mem_nil there
  · exact full p nodes found

theorem full_take {t : Shelves} (full : t.Full) (b : Berth) : (t.take b).Full := by
  intro p nodes found
  unfold take at found
  split at found
  · exact full p nodes found
  · split at found
    · rw [Table.lookup_erase] at found
      split at found
      · simp at found
      · exact full p nodes found
    · rename_i left
      rw [Table.lookup_insert] at found
      split at found
      · rw [← Option.some.inj found]
        exact Bool.eq_false_iff.mpr left
      · exact full p nodes found

/-- Without empty shelves, what the berths answer is all there is. -/
theorem eq_of_at? {t t' : Shelves} (full : t.Full) (full' : t'.Full)
    (same : ∀ b, t.at? b = t'.at? b) : t = t' := by
  refine Table.eq_of_lookup fun p => ?_
  have alone : ∀ {u u' : Shelves} {nodes}, u.Full → (∀ b, u.at? b = u'.at? b) →
      u.get? p = some nodes → u'.get? p = none → False := by
    intro u u' nodes full same found absent
    have none := Table.isEmpty_of_lookup (t := nodes) fun n => by
      simpa [at?, found, absent] using same ⟨p, n⟩
    simp [full p nodes found] at none
  cases found : t.get? p with
  | none =>
    cases found' : t'.get? p with
    | none => rfl
    | some nodes' => exact (alone full' (fun b => (same b).symm) found' found).elim
  | some nodes =>
    cases found' : t'.get? p with
    | none => exact (alone full same found found').elim
    | some nodes' =>
      refine congrArg some (Table.eq_of_lookup fun n => ?_)
      simpa [at?, found, found'] using same ⟨p, n⟩

def ofFlat (flat : Table Berth RecordId) : Shelves := flat.entries.foldl (fun t e => t.put e.1 e.2) ∅

theorem full_ofFlat (flat : Table Berth RecordId) : (ofFlat flat).Full := by
  have along : ∀ (l : List (Berth × RecordId)) (t : Shelves), t.Full →
      (l.foldl (fun t e => t.put e.1 e.2) t).Full := by
    intro l
    induction l with
    | nil => exact fun t full => full
    | cons e l ih => exact fun t full => ih _ (full_put full e.1 e.2)
  exact along flat.entries ∅ fun p nodes found => by simp at found

theorem at?_ofFlat (flat : Table Berth RecordId) (b : Berth) : (ofFlat flat).at? b = flat.get? b := by
  have along : ∀ (l : List (Berth × RecordId)), (l.Pairwise fun a b => compare a.1 b.1 = .lt) →
      ∀ t : Shelves, (l.foldl (fun t e => t.put e.1 e.2) t).at? b =
        (Table.find b l).or (t.at? b) := by
    intro l sorted
    induction l with
    | nil => simp [Table.find]
    | cons e l ih =>
      obtain ⟨below, rest⟩ := List.pairwise_cons.mp sorted
      intro t
      rw [List.foldl_cons, ih rest, at?_put]
      by_cases same : b = e.1
      · have later : Table.find b l = none := by
          refine Option.eq_none_iff_forall_ne_some.mpr fun r found => ?_
          have lt := below _ (Table.mem_of_find found)
          simp [same] at lt
        simp [Table.find, same ▸ later, same]
      · have ne : compare b e.1 ≠ .eq := fun eq => same (LawfulEqCmp.eq_of_compare eq)
        simp [Table.find, same, ne]
  exact (along flat.entries flat.ascending ∅).trans Option.or_none

theorem ofFlat_insert (flat : Table Berth RecordId) (b : Berth) (r : RecordId) :
    ofFlat (flat.insert b r) = (ofFlat flat).put b r := by
  refine eq_of_at? (full_ofFlat _) (full_put (full_ofFlat _) _ _) fun b' => ?_
  rw [at?_ofFlat, at?_put, at?_ofFlat, Table.lookup_insert]

theorem ofFlat_erase (flat : Table Berth RecordId) (b : Berth) :
    ofFlat (flat.erase b) = (ofFlat flat).take b := by
  refine eq_of_at? (full_ofFlat _) (full_take (full_ofFlat _) _) fun b' => ?_
  rw [at?_ofFlat, at?_take, at?_ofFlat, Table.lookup_erase]

end Shelves

namespace Attempt
variable (s : Attempt)

def shelves : Shelves := .ofFlat s.reservations

theorem mem_reservedPriorities (p : Priority) :
    p ∈ s.reservedPriorities ↔ ∃ n r, s.reservations.get? ⟨p, n⟩ = some r := by
  simp only [reservedPriorities, List.mem_eraseDups, List.mem_map, Table.mem_keys]
  constructor
  · rintro ⟨⟨_, n⟩, found, rfl⟩
    exact ⟨n, Option.isSome_iff_exists.mp found⟩
  · rintro ⟨n, r, found⟩
    exact ⟨⟨p, n⟩, by simp [found], rfl⟩

theorem mem_shelf (p : Priority) (n : NodeId) (r : RecordId) :
    (∃ nodes, s.shelves.get? p = some nodes ∧ (n, r) ∈ nodes.entries) ↔
      s.reservations.get? ⟨p, n⟩ = some r := by
  rw [← Shelves.at?_ofFlat, Shelves.at?, Option.bind_eq_some_iff]
  simp only [Table.mem_entries, shelves]

theorem mem_shelves (p : Priority) :
    p ∈ s.shelves.keys ↔ ∃ n r, s.reservations.get? ⟨p, n⟩ = some r := by
  rw [Table.mem_keys, Option.isSome_iff_exists]
  constructor
  · rintro ⟨nodes, found⟩
    have some : nodes.entries ≠ [] := by
      simpa [Table.isEmpty] using Shelves.full_ofFlat s.reservations p nodes found
    obtain ⟨⟨n, r⟩, member⟩ := List.exists_mem_of_ne_nil _ some
    exact ⟨n, r, (s.mem_shelf p n r).mp ⟨nodes, found, member⟩⟩
  · rintro ⟨n, r, found⟩
    obtain ⟨nodes, shelf, _⟩ := (s.mem_shelf p n r).mpr found
    exact ⟨nodes, shelf⟩

theorem ascending_eraseDups (l : List Priority) (sorted : l.Pairwise fun a b => compare a b ≠ .gt) :
    l.eraseDups.Pairwise fun a b => compare a b = .lt := by
  induction size : l.length using Nat.strongRecOn generalizing l with
  | ind k ih =>
    cases l with
    | nil => simp
    | cons p l =>
      obtain ⟨above, rest⟩ := List.pairwise_cons.mp sorted
      rw [List.eraseDups_cons]
      refine List.pairwise_cons.mpr ⟨fun p' member => ?_, ?_⟩
      · rw [List.mem_eraseDups, List.mem_filter] at member
        have ne : p' ≠ p := by simpa using member.2
        cases order : compare p p' with
        | lt => rfl
        | eq => exact (ne (LawfulEqCmp.eq_of_compare order).symm).elim
        | gt => exact (above p' member.1 order).elim
      · have fewer := List.length_filter_le (fun b => !b == p) l
        exact ih _ (by simp only [List.length_cons] at size; omega) _ (rest.filter _) rfl

theorem eq_of_ascending {κ : Type*} [Ord κ] [TransOrd κ] {l l' : List κ}
    (sorted : l.Pairwise fun a b => compare a b = .lt)
    (sorted' : l'.Pairwise fun a b => compare a b = .lt) (same : ∀ k, k ∈ l ↔ k ∈ l') : l = l' := by
  have distinct : ∀ {l : List κ}, (l.Pairwise fun a b => compare a b = .lt) → l.Nodup :=
    fun sorted => sorted.imp fun {a b} lt eq => by
      subst eq
      simp at lt
  refine List.Perm.eq_of_pairwise ?_ sorted sorted' ((List.perm_ext_iff_of_nodup (distinct sorted)
    (distinct sorted')).mpr same)
  intro a b _ _ lt gt
  exact absurd (OrientedCmp.gt_of_lt lt) (by simp [gt])

theorem reservedPriorities_eq : s.reservedPriorities = s.shelves.keys := by
  refine eq_of_ascending (ascending_eraseDups _ ?_) (List.pairwise_map.mpr s.shelves.ascending)
    fun p => (s.mem_reservedPriorities p).trans (s.mem_shelves p).symm
  refine List.pairwise_map.mpr (List.pairwise_map.mpr (s.reservations.ascending.imp ?_))
  intro e e' lt gt
  have first : (compare e.1.priority e'.1.priority).then (compare e.1.node e'.1.node) = .lt := lt
  simp [gt] at first

theorem size_shelves : (s.shelves.values.map (·.size)).sum = s.reservations.size := by
  have laid : s.reservations.entries.Perm (s.shelves.entries.flatMap fun shelf =>
      shelf.2.entries.map fun e => (⟨shelf.1, e.1⟩, e.2)) := by
    refine (List.perm_ext_iff_of_nodup s.reservations.entries_nodup ?_).mpr ?_
    · refine List.nodup_flatMap.mpr ⟨fun shelf _ => ?_, ?_⟩
      · refine shelf.2.entries_nodup.map ?_
        rintro ⟨n, r⟩ ⟨n', r'⟩ same
        simpa using same
      · refine s.shelves.ascending.imp fun {shelf shelf'} lt e here there => ?_
        obtain ⟨_, _, rfl⟩ := List.mem_map.mp here
        obtain ⟨_, _, same⟩ := List.mem_map.mp there
        simp only [Prod.mk.injEq, Berth.mk.injEq] at same
        simp [same.1.1] at lt
    · rintro ⟨⟨p, n⟩, r⟩
      rw [Table.mem_entries, ← mem_shelf]
      simp only [List.mem_flatMap, List.mem_map, Prod.exists, Prod.mk.injEq, Berth.mk.injEq,
        Table.mem_entries]
      constructor
      · rintro ⟨nodes, shelf, member⟩
        exact ⟨p, nodes, shelf, n, r, member, ⟨rfl, rfl⟩, rfl⟩
      · rintro ⟨_, nodes, shelf, _, _, member, ⟨rfl, rfl⟩, rfl⟩
        exact ⟨nodes, shelf, member⟩
  have lengths := laid.length_eq
  rw [List.length_flatMap] at lengths
  simp only [List.length_map] at lengths
  simp only [Table.size, Table.values, List.map_map, lengths]
  rfl

theorem ncard_reservations :
    {b : Berth | (s.reservations.get? b).isSome}.ncard = s.reservations.size := by
  have berths : {b : Berth | (s.reservations.get? b).isSome} = ↑s.reservations.keys.toFinset := by
    ext b
    simp [Table.mem_keys]
  rw [berths, Set.ncard_coe_finset, List.toFinset_card_of_nodup s.reservations.keys_nodup]
  simp [Table.keys, Table.size]

end Attempt
end ClusterLedger
