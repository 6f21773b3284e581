import ClusterLedger.Proofs.Agreement
import ClusterLedger.Proofs.Amount
import Mathlib.Algebra.Order.BigOperators.Group.List
import Mathlib.Algebra.Order.Ring.Nat
/- What attempts hold, read off their records, and what each change of the books takes away from it
   and adds to it. Holdings are lists up to order; sums over them are exact. -/
namespace ClusterLedger

/-- What a container or a reservation counts for. -/
structure Share where
  partition : Partition
  resource : Resource
  isMaster : Bool
deriving DecidableEq, Repr

namespace Record

def liveShare (r : Record) : Share := ⟨r.partition, r.resource, r.isMaster⟩
def reservedShare (r : Record) : Share := ⟨r.partition, r.reservedResource, r.isMaster⟩

@[simp] theorem acquire_liveShare (r : Record) : r.acquire.liveShare = r.liveShare := by
  unfold acquire
  split <;> rfl

@[simp] theorem acquire_reservedShare (r : Record) : r.acquire.reservedShare = r.reservedShare := by
  unfold acquire
  split <;> rfl

end Record

def total (l : List Share) (p : Partition) (d : Dimension) : Nat :=
  ((l.filter (·.partition == p)).map (·.resource.amount d)).sum

theorem total_append (l l' : List Share) (p : Partition) (d : Dimension) :
    total (l ++ l') p d = total l p d + total l' p d := by
  simp [total]

theorem total_perm {l l' : List Share} (same : l.Perm l') (p : Partition) (d : Dimension) :
    total l p d = total l' p d :=
  ((same.filter _).map _).sum_eq

theorem total_single (x : Share) (p : Partition) (d : Dimension) :
    total [x] p d = if p = x.partition then x.resource.amount d else 0 := by
  by_cases here : p = x.partition
  · simp [total, here]
  · simp [total, here, Ne.symm here]

theorem total_le {l l' : List Share} (part : l.Sublist l') (p : Partition) (d : Dimension) :
    total l p d ≤ (l'.map (·.resource.amount d)).sum :=
  ((List.filter_sublist.trans part).map _).sum_le_sum fun _ _ => Nat.zero_le _

structure Holding where
  live : List Share := []
  reserved : List Share := []
deriving Repr

namespace Holding

def also (h k : Holding) : Holding := ⟨h.live ++ k.live, h.reserved ++ k.reserved⟩

structure Same (h k : Holding) : Prop where
  live : h.live.Perm k.live
  reserved : h.reserved.Perm k.reserved

/-- What the figures of the holding come to. What a master asked for is not held. -/
def figure (h : Holding) : Tally
  | .used, p, d => total h.live p d
  | .reserved, p, d => total h.reserved p d
  | .amUsed, p, d => total (h.live.filter (·.isMaster)) p d
  | .amResource, _, _ => 0

def whole (h : Holding) (d : Dimension) : Nat :=
  ((h.live ++ h.reserved).map (·.resource.amount d)).sum

variable {h k : Holding}

theorem figure_le_whole (h : Holding) (g : Figure) (p : Partition) (d : Dimension) :
    h.figure g p d ≤ h.whole d := by
  cases g
  · exact total_le (List.sublist_append_left _ _) p d
  · exact total_le (List.sublist_append_right _ _) p d
  · exact total_le (List.filter_sublist.trans (List.sublist_append_left _ _)) p d
  · exact Nat.zero_le _

theorem figure_also (h k : Holding) (g : Figure) (p : Partition) (d : Dimension) :
    (h.also k).figure g p d = h.figure g p d + k.figure g p d := by
  cases g <;> simp [figure, also, total_append]

@[simp] theorem figure_nothing (g : Figure) (p : Partition) (d : Dimension) :
    ({} : Holding).figure g p d = 0 := by
  cases g <;> rfl

@[simp] theorem figure_amResource (h : Holding) (p : Partition) (d : Dimension) :
    h.figure .amResource p d = 0 := rfl

theorem figure_live (x : Share) (g : Figure) (p : Partition) (d : Dimension) :
    ({ live := [x] } : Holding).figure g p d = Tally.single .used x.partition x.resource g p d +
      if x.isMaster then Tally.single .amUsed x.partition x.resource g p d else 0 := by
  cases master : x.isMaster <;> cases g <;>
    simp [figure, Tally.single, total_single, master] <;> rfl

theorem figure_reserved (x : Share) (g : Figure) (p : Partition) (d : Dimension) :
    ({ reserved := [x] } : Holding).figure g p d =
      Tally.single .reserved x.partition x.resource g p d := by
  cases g <;> simp [figure, Tally.single, total_single] <;> rfl

theorem Same.figure (same : h.Same k) (g : Figure) (p : Partition) (d : Dimension) :
    h.figure g p d = k.figure g p d := by
  cases g
  · exact total_perm same.live p d
  · exact total_perm same.reserved p d
  · exact total_perm (same.live.filter _) p d
  · rfl

end Holding

namespace World

def shares {κ : Type} [Ord κ] (w : World) (t : Table κ RecordId) (share : Record → Share) :
    List Share :=
  t.values.map fun r => share (w.record r)

def holding (w : World) (s : Attempt) : Holding :=
  ⟨w.shares s.live (·.liveShare), w.shares s.reservations (·.reservedShare)⟩

/-- One attempt loses one part of what it holds and gains another. -/
structure Shift (w w' : World) (a : AttemptId) (s s' : Attempt) (gone come : Holding) : Prop where
  change : ∃ kept, (w.holding s).Same (gone.also kept) ∧ (w'.holding s').Same (come.also kept)
  others : ∀ {b t}, b ≠ a → w.attempts.get? b = some t → w'.holding t = w.holding t

def Listed (w : World) (a : AttemptId) (r : RecordId) : Prop :=
  (∃ c, w.running? a c = some r) ∨ ∃ b, w.reservation? a b = some r

section Shares
variable {κ : Type} [Ord κ] {w w' : World} {t : Table κ RecordId} {share : Record → Share}

theorem shares_congr (same : ∀ r ∈ t.values, share (w'.record r) = share (w.record r)) :
    w'.shares t share = w.shares t share :=
  List.map_congr_left same

variable [Std.LawfulEqOrd κ]

theorem shares_found {k : κ} {r : RecordId} (found : t.get? k = some r) :
    (w.shares t share).Perm (share (w.record r) :: w.shares (t.erase k) share) :=
  (Table.values_of_get? found).map _

theorem shares_insert [Std.TransOrd κ] {k : κ} {r : RecordId} (absent : t.get? k = none) :
    (w.shares (t.insert k r) share).Perm (share (w.record r) :: w.shares t share) :=
  (Table.values_insert_new r absent).map _

end Shares

variable {w w' : World} {a b : AttemptId} {s s' t : Attempt} {r x : RecordId}

theorem listed_live (at_ : w.attempts.get? b = some t) (member : x ∈ t.live.values) :
    w.Listed b x := by
  obtain ⟨c, found⟩ := Table.mem_values.mp member
  exact .inl ⟨c, by simp [running?, at_, found]⟩

theorem listed_reserved (at_ : w.attempts.get? b = some t) (member : x ∈ t.reservations.values) :
    w.Listed b x := by
  obtain ⟨berth, found⟩ := Table.mem_values.mp member
  exact .inr ⟨berth, by simp [reservation?, at_, found]⟩

theorem Coherent.listed (coherent : w.Coherent) (listed : w.Listed b x) :
    w.Knows x ∧ (w.record x).attempt = b := by
  rcases listed with ⟨c, runs⟩ | ⟨berth, stands⟩
  · exact ⟨(coherent.runs runs).1, (coherent.runs runs).2.owner⟩
  · exact ⟨(coherent.stands stands).1, (coherent.stands stands).2.owner⟩

theorem holding_same (at_ : w.attempts.get? b = some t)
    (same : ∀ x, w.Listed b x → w'.record x = w.record x) : w'.holding t = w.holding t := by
  have live : w'.shares t.live (·.liveShare) = w.shares t.live (·.liveShare) :=
    shares_congr fun x member => congrArg _ (same x (listed_live at_ member))
  have reserved : w'.shares t.reservations (·.reservedShare) =
      w.shares t.reservations (·.reservedShare) :=
    shares_congr fun x member => congrArg _ (same x (listed_reserved at_ member))
  rw [holding, holding, live, reserved]

theorem Coherent.beside_new (coherent : w.Coherent) (fresh : ¬ w.Knows r)
    (records : ∀ x, x ≠ r → w'.record x = w.record x) (at_ : w.attempts.get? b = some t) :
    w'.holding t = w.holding t := by
  refine holding_same at_ fun x listed => records x ?_
  rintro rfl
  exact fresh (coherent.listed listed).1

theorem Coherent.beside_own (coherent : w.Coherent) (own : w.Listed a r)
    (records : ∀ x, x ≠ r → w'.record x = w.record x) (ne : b ≠ a)
    (at_ : w.attempts.get? b = some t) : w'.holding t = w.holding t := by
  refine holding_same at_ fun x listed => records x ?_
  rintro rfl
  exact ne ((coherent.listed listed).2.symm.trans (coherent.listed own).2)

theorem Coherent.beside_live {c : ContainerId} (coherent : w.Coherent) (before : w.attempts.get? a = some s)
    (found : s.live.get? c = some r) (records : ∀ x, x ≠ r → w'.record x = w.record x) :
    w'.shares (s.live.erase c) (·.liveShare) = w.shares (s.live.erase c) (·.liveShare) ∧
    w'.shares s.reservations (·.reservedShare) = w.shares s.reservations (·.reservedShare) := by
  have runs : w.running? a c = some r := by
    simp [running?, before, found]
  constructor
  · refine shares_congr fun x member => congrArg _ (records x ?_)
    rintro rfl
    obtain ⟨c', other⟩ := Table.mem_values.mp member
    rw [Table.lookup_erase] at other
    split at other
    · simp at other
    · rename_i apart
      have runs' : w.running? a c' = some x := by
        simp [running?, before, other]
      exact apart (coherent.name_unique runs' runs).2
  · refine shares_congr fun x member => congrArg _ (records x ?_)
    rintro rfl
    obtain ⟨berth, other⟩ := Table.mem_values.mp member
    have stands : w.reservation? a berth = some x := by
      simp [reservation?, before, other]
    exact coherent.apart stands runs

theorem Coherent.beside_reserved {berth : Berth} (coherent : w.Coherent)
    (before : w.attempts.get? a = some s) (found : s.reservations.get? berth = some r)
    (records : ∀ x, x ≠ r → w'.record x = w.record x) :
    w'.shares s.live (·.liveShare) = w.shares s.live (·.liveShare) ∧
    w'.shares (s.reservations.erase berth) (·.reservedShare) =
      w.shares (s.reservations.erase berth) (·.reservedShare) := by
  have stands : w.reservation? a berth = some r := by
    simp [reservation?, before, found]
  constructor
  · refine shares_congr fun x member => congrArg _ (records x ?_)
    rintro rfl
    obtain ⟨c, other⟩ := Table.mem_values.mp member
    have runs : w.running? a c = some x := by
      simp [running?, before, other]
    exact coherent.apart stands runs
  · refine shares_congr fun x member => congrArg _ (records x ?_)
    rintro rfl
    obtain ⟨berth', other⟩ := Table.mem_values.mp member
    rw [Table.lookup_erase] at other
    split at other
    · simp at other
    · rename_i apart
      have stands' : w.reservation? a berth' = some x := by
        simp [reservation?, before, other]
      exact apart (coherent.berth_unique stands' stands).2

theorem Coherent.shift_begins {record} (coherent : w.Coherent) (step : Begins w w' a s s' r record) :
    Shift w w' a s s' {} { live := [record.liveShare] } := by
  have others := record_other step.records
  have made := congrArg Record.liveShare (record_own step.records)
  obtain ⟨live, reserved⟩ := Holding.mk.inj (coherent.beside_new step.fresh others step.before)
  have grown : (w'.shares s'.live (·.liveShare)).Perm
      (record.liveShare :: w.shares s.live (·.liveShare)) := by
    rw [step.live, ← live, ← made]
    exact shares_insert step.idFree
  have kept : w'.shares s'.reservations (·.reservedShare) =
      w.shares s.reservations (·.reservedShare) := by
    rw [step.reservations, reserved]
  exact ⟨⟨w.holding s, ⟨.rfl, .rfl⟩, grown, .of_eq kept⟩,
    fun _ at_ => coherent.beside_new step.fresh others at_⟩

theorem Coherent.shift_ends {c partition report ending} (coherent : w.Coherent)
    (step : Ends w w' a s s' c r partition report ending) :
    Shift w w' a s s' { live := [(w.record r).liveShare] } {} := by
  have others := record_other step.records
  have runs := (step.running?_before c).trans step.found
  obtain ⟨live, reserved⟩ := coherent.beside_live step.before step.found others
  have left : w'.shares s'.live (·.liveShare) = w.shares (s.live.erase c) (·.liveShare) := by
    rw [step.live, live]
  have kept : w'.shares s'.reservations (·.reservedShare) =
      w.shares s.reservations (·.reservedShare) := by
    rw [step.reservations, reserved]
  exact ⟨⟨⟨_, _⟩, ⟨shares_found step.found, .rfl⟩, .of_eq left, .of_eq kept⟩,
    fun ne at_ => coherent.beside_own (.inl ⟨c, runs⟩) others ne at_⟩

theorem Coherent.shift_relabels {c new} (coherent : w.Coherent) (step : Relabels w w' a s s' c r new) :
    Shift w w' a s s' { live := [(w.record r).liveShare] }
      { live := [{ (w.record r).liveShare with partition := new }] } := by
  have others := record_other step.records
  have made : (w'.record r).liveShare = { (w.record r).liveShare with partition := new } := by
    rw [record_own step.records]
    rfl
  have runs := (step.running?_before c).trans step.found
  obtain ⟨live, reserved⟩ := coherent.beside_live step.before step.found others
  have put : (w'.shares s'.live (·.liveShare)).Perm
      ({ (w.record r).liveShare with partition := new } ::
        w.shares (s.live.erase c) (·.liveShare)) := by
    rw [step.live, ← live, ← made]
    exact shares_found step.found
  have kept : w'.shares s'.reservations (·.reservedShare) =
      w.shares s.reservations (·.reservedShare) := by
    rw [step.reservations, reserved]
  exact ⟨⟨⟨_, _⟩, ⟨shares_found step.found, .rfl⟩, put, .of_eq kept⟩,
    fun ne at_ => coherent.beside_own (.inl ⟨c, runs⟩) others ne at_⟩

theorem Coherent.shift_enlists {berth record} (coherent : w.Coherent)
    (free : s.reservations.get? berth = none) (step : Enlists w w' a s s' berth r record) :
    Shift w w' a s s' {} { reserved := [record.reservedShare] } := by
  have others := record_other step.records
  have made := record_own step.records
  obtain ⟨live, reserved⟩ := Holding.mk.inj (coherent.beside_new step.fresh others step.before)
  have kept : w'.shares s'.live (·.liveShare) = w.shares s.live (·.liveShare) := by
    rw [step.live, live]
  have grown : (w'.shares s'.reservations (·.reservedShare)).Perm
      (record.reservedShare :: w.shares s.reservations (·.reservedShare)) := by
    rw [step.reservations, ← reserved, ← made]
    exact shares_insert free
  exact ⟨⟨w.holding s, ⟨.rfl, .rfl⟩, .of_eq kept, grown⟩,
    fun _ at_ => coherent.beside_new step.fresh others at_⟩

theorem Sound.shift_reserves {berth node record} (sound : w.Sound)
    (step : Reserves w w' a s s' berth node r record) :
    Shift w w' a s s' {} { reserved := [record.reservedShare] } := by
  refine sound.shift_enlists ?_ step.toEnlists
  have vacant : w.slot? berth.node = none := by
    simp [slot?, step.offered, step.vacant]
  cases found : s.reservations.get? berth with
  | none => rfl
  | some x =>
    have held := sound.agree.mpr ((step.reservation?_before berth).trans found)
    simp [vacant] at held

theorem Coherent.shift_drops {berth} (coherent : w.Coherent) (step : Drops w w' a s s' berth r) :
    Shift w w' a s s' { reserved := [(w.record r).reservedShare] } {} := by
  have others : ∀ x, x ≠ r → w'.record x = w.record x := fun x _ => step.records x
  have stands := (step.reservation?_before berth).trans step.found
  obtain ⟨live, reserved⟩ := coherent.beside_reserved step.before step.found others
  have kept : w'.shares s'.live (·.liveShare) = w.shares s.live (·.liveShare) := by
    rw [step.live, live]
  have left : w'.shares s'.reservations (·.reservedShare) =
      w.shares (s.reservations.erase berth) (·.reservedShare) := by
    rw [step.reservations, reserved]
  exact ⟨⟨⟨_, _⟩, ⟨.rfl, shares_found step.found⟩, .of_eq kept, .of_eq left⟩,
    fun ne at_ => coherent.beside_own (.inr ⟨berth, stands⟩) others ne at_⟩

theorem Coherent.shift_remakes {berth partition resource} (coherent : w.Coherent)
    (step : Remakes w w' a s s' berth r partition resource) :
    Shift w w' a s s' { reserved := [(w.record r).reservedShare] }
      { reserved := [⟨partition, resource, (w.record r).isMaster⟩] } := by
  have others := record_other step.records
  have made : (w'.record r).reservedShare = ⟨partition, resource, (w.record r).isMaster⟩ := by
    rw [record_own step.records]
    rfl
  have stands := (step.reservation?_before berth).trans step.found
  obtain ⟨live, reserved⟩ := coherent.beside_reserved step.before step.found others
  have kept : w'.shares s'.live (·.liveShare) = w.shares s.live (·.liveShare) := by
    rw [step.live, live]
  have put : (w'.shares s'.reservations (·.reservedShare)).Perm
      (⟨partition, resource, (w.record r).isMaster⟩ ::
        w.shares (s.reservations.erase berth) (·.reservedShare)) := by
    rw [step.reservations, ← reserved, ← made]
    exact shares_found step.found
  exact ⟨⟨⟨_, _⟩, ⟨.rfl, shares_found step.found⟩, .of_eq kept, put⟩,
    fun ne at_ => coherent.beside_own (.inr ⟨berth, stands⟩) others ne at_⟩

theorem Coherent.shift_reseats {berth target} (coherent : w.Coherent)
    (free : s.reservations.get? ⟨berth.priority, target⟩ = none)
    (step : Reseats w w' a s s' berth target r) : Shift w w' a s s' {} {} := by
  have others := record_other step.records
  have made : (w'.record r).reservedShare = (w.record r).reservedShare := by
    rw [record_own step.records]
    rfl
  have stands := (step.reservation?_before berth).trans step.found
  have left : (s.reservations.erase berth).get? ⟨berth.priority, target⟩ = none := by
    rw [Table.lookup_erase, free, ite_self]
  obtain ⟨live, reserved⟩ := coherent.beside_reserved step.before step.found others
  have kept : w'.shares s'.live (·.liveShare) = w.shares s.live (·.liveShare) := by
    rw [step.live, live]
  have put : (w'.shares s'.reservations (·.reservedShare)).Perm
      (w.shares s.reservations (·.reservedShare)) := by
    rw [step.reservations]
    refine (shares_insert left).trans ?_
    rw [made, reserved]
    exact (shares_found step.found).symm
  exact ⟨⟨w.holding s, ⟨.rfl, .rfl⟩, .of_eq kept, put⟩,
    fun ne at_ => coherent.beside_own (.inr ⟨berth, stands⟩) others ne at_⟩

theorem Sound.shift_moves {berth target} (sound : w.Sound)
    (step : Moves w w' a s s' berth target r) : Shift w w' a s s' {} {} := by
  refine sound.shift_reseats ?_ step.toReseats
  cases found : s.reservations.get? ⟨berth.priority, target⟩ with
  | none => rfl
  | some x =>
    have held := sound.agree.mpr ((step.reservation?_before _).trans found)
    simp [step.vacant] at held

theorem holding_kept (live : ∀ x, (w'.record x).liveShare = (w.record x).liveShare)
    (reserved : ∀ x, (w'.record x).reservedShare = (w.record x).reservedShare) (t : Attempt) :
    w'.holding t = w.holding t := by
  simp [holding, shares, live, reserved]

theorem shift_kept (live : ∀ x, (w'.record x).liveShare = (w.record x).liveShare)
    (reserved : ∀ x, (w'.record x).reservedShare = (w.record x).reservedShare)
    (same : s'.live = s.live) (same' : s'.reservations = s.reservations) :
    Shift w w' a s s' {} {} := by
  refine ⟨⟨w.holding s, ⟨.rfl, .rfl⟩, ?_⟩, fun _ _ => holding_kept live reserved _⟩
  rw [holding_kept live reserved]
  simp only [holding, same, same']
  exact ⟨.rfl, .rfl⟩

theorem shift_delivers (step : Delivers w w' a s s') : Shift w w' a s s' {} {} := by
  refine shift_kept ?_ ?_ step.live step.reservations
  · intro x
    rw [step.records]
    split <;> simp
  · intro x
    rw [step.records]
    split <;> simp

theorem shift_notes (step : Notes w w' a s s') : Shift w w' a s s' {} {} := by
  refine shift_kept ?_ ?_ step.live step.reservations
  · intro x
    rw [step.records]
  · intro x
    rw [step.records]

section Shift
variable {gone come : Holding}

theorem Shift.figure (shift : Shift w w' a s s' gone come) (g : Figure) (p : Partition)
    (d : Dimension) :
    gone.figure g p d ≤ (w.holding s).figure g p d ∧
    (w'.holding s').figure g p d =
      (w.holding s).figure g p d - gone.figure g p d + come.figure g p d := by
  obtain ⟨kept, before, after⟩ := shift.change
  rw [before.figure, after.figure, Holding.figure_also, Holding.figure_also]
  omega

theorem Shift.size (shift : Shift w w' a s s' gone come) :
    gone.reserved.length ≤ s.reservations.size ∧
    s'.reservations.size = s.reservations.size - gone.reserved.length + come.reserved.length := by
  obtain ⟨kept, before, after⟩ := shift.change
  have first := before.reserved.length_eq
  have second := after.reserved.length_eq
  simp only [holding, shares, Holding.also, List.length_map, List.length_append,
    ← Table.size_eq_length_values] at first second
  omega

end Shift

end World
end ClusterLedger
