import ClusterLedger.Usage
import Mathlib.Algebra.Order.Ring.Nat
/- Resources as exact numbers, one dimension at a time, and usage figures as functions of them.
   Sums of amounts are unbounded; a resource holds what fits the width of each dimension. -/
namespace ClusterLedger
open Std

inductive Dimension
  | memory
  | vcores
deriving DecidableEq, Repr

def Dimension.capacity : Dimension → Nat
  | .memory => UInt64.size - 1
  | .vcores => UInt32.size - 1

namespace Resource

def amount (r : Resource) : Dimension → Nat
  | .memory => r.memoryMb.toNat
  | .vcores => r.vcores.toNat

theorem amount_le_capacity (r : Resource) (d : Dimension) : r.amount d ≤ d.capacity := by
  cases d
  · exact Nat.le_sub_one_of_lt r.memoryMb.toNat_lt
  · exact Nat.le_sub_one_of_lt r.vcores.toNat_lt

@[simp] theorem amount_zero (d : Dimension) : zero.amount d = 0 := by
  cases d <;> rfl

theorem eq_of_amount {a b : Resource} (same : ∀ d, a.amount d = b.amount d) : a = b := by
  cases a; cases b
  congr 1
  · exact UInt64.toNat_inj.mp (same .memory)
  · exact UInt32.toNat_inj.mp (same .vcores)

theorem fitsIn_iff {r whole : Resource} :
    r.fitsIn whole = true ↔ ∀ d, r.amount d ≤ whole.amount d := by
  simp only [fitsIn, Bool.and_eq_true, decide_eq_true_eq, UInt64.le_iff_toNat_le,
    UInt32.le_iff_toNat_le]
  constructor
  · rintro ⟨memory, vcores⟩ (_ | _)
    · exact memory
    · exact vcores
  · exact fun fits => ⟨fits .memory, fits .vcores⟩

theorem clamp64 (n : Nat) : (UInt64.ofNatClamp n).toNat = min (UInt64.size - 1) n := by
  unfold UInt64.ofNatClamp
  split <;> simp only [UInt64.toNat_ofNatLT] <;> omega

theorem clamp32 (n : Nat) : (UInt32.ofNatClamp n).toNat = min (UInt32.size - 1) n := by
  unfold UInt32.ofNatClamp
  split <;> simp only [UInt32.toNat_ofNatLT] <;> omega

theorem amount_add (a b : Resource) (d : Dimension) :
    (a + b).amount d = min d.capacity (a.amount d + b.amount d) := by
  cases d
  · exact clamp64 _
  · exact clamp32 _

theorem amount_sub (a b : Resource) (d : Dimension) :
    (a - b).amount d = a.amount d - b.amount d := by
  have bound := a.amount_le_capacity d
  cases d
  · refine (clamp64 _).trans (Nat.min_eq_right ?_)
    exact Nat.le_trans (Nat.sub_le _ _) bound
  · refine (clamp32 _).trans (Nat.min_eq_right ?_)
    exact Nat.le_trans (Nat.sub_le _ _) bound

/-- A sum is cut to its width once, however often its parts were. -/
theorem amount_sum (l : List Resource) (d : Dimension) :
    (sum l).amount d = min d.capacity (l.map (·.amount d)).sum := by
  have along : ∀ (l : List Resource) (r : Resource), (l.foldl (· + ·) r).amount d =
      min d.capacity (r.amount d + (l.map (·.amount d)).sum) := by
    intro l
    induction l with
    | nil =>
      intro r
      exact (Nat.min_eq_right (r.amount_le_capacity d)).symm
    | cons x l ih =>
      intro r
      rw [List.foldl_cons, ih, amount_add, List.map_cons, List.sum_cons]
      omega
  rw [sum, along, amount_zero, Nat.zero_add]

theorem sum_perm {l l' : List Resource} (perm : l.Perm l') : sum l = sum l' := by
  refine eq_of_amount fun d => ?_
  rw [amount_sum, amount_sum, (perm.map (·.amount d)).sum_nat]

theorem add_sub_of_fits {a b : Resource} (fits : ∀ d, a.amount d + b.amount d ≤ d.capacity) :
    a + b - b = a := by
  refine eq_of_amount fun d => ?_
  have fit := fits d
  rw [amount_sub, amount_add]
  omega

end Resource

namespace Usage

theorem get_assign (u : Usage) (f g : Figure) (p x : Partition) (r : Resource) :
    (u.assign f p r).get g x = if g = f ∧ x = p then r else u.get g x := by
  simp only [assign, get, figures, Table.get?_insert, LawfulEqCmp.compare_eq_iff_eq]
  by_cases here : x = p
  · subst here
    simp [Figures.get_set]
  · simp [here]

/-- A partition off the record reads as a blank one, so pruning changes no figure. -/
theorem get_prune (u : Usage) (g : Figure) (p x : Partition) : (u.prune p).get g x = u.get g x := by
  unfold prune
  split
  · rename_i blank
    simp only [get, figures, Table.get?_erase, LawfulEqCmp.compare_eq_iff_eq]
    by_cases here : x = p
    · subst here
      simp [blank]
    · simp [here]
  · rfl

theorem get_increase (u : Usage) (f g : Figure) (p x : Partition) (r : Resource) :
    (u.increase f p r).get g x = if g = f ∧ x = p then u.get f p + r else u.get g x :=
  get_assign u f g p x _

theorem get_decrease (u : Usage) (f g : Figure) (p x : Partition) (r : Resource) :
    (u.decrease f p r).get g x = if g = f ∧ x = p then u.get f p - r else u.get g x := by
  rw [decrease, get_prune, get_assign]

end Usage

abbrev Tally := Figure → Partition → Dimension → Nat

def Usage.Shows (u : Usage) (t : Tally) : Prop := ∀ g x d, (u.get g x).amount d = t g x d

/-- A change of figures that takes `out` off and then puts `inn` on. It is exact as long as the
    results fit their widths. -/
def Posts (change : Usage → Usage) (out inn : Tally) : Prop :=
  ∀ (u : Usage) (t : Tally), u.Shows t →
    (∀ g x d, t g x d - out g x d + inn g x d ≤ d.capacity) →
    (change u).Shows fun g x d => t g x d - out g x d + inn g x d

def Tally.single (f : Figure) (p : Partition) (r : Resource) : Tally :=
  fun g x d => if g = f ∧ x = p then r.amount d else 0

theorem posts_nothing : Posts id (fun _ _ _ => 0) (fun _ _ _ => 0) := by
  intro u t shows _
  simpa using shows

theorem posts_increase (f : Figure) (p : Partition) (r : Resource) :
    Posts (·.increase f p r) (fun _ _ _ => 0) (.single f p r) := by
  intro u t shows fits g x d
  have fit := fits g x d
  have now := shows g x d
  simp only [Tally.single, Usage.get_increase] at fit ⊢
  by_cases here : g = f ∧ x = p
  · obtain ⟨rfl, rfl⟩ := here
    simp only [and_self, ↓reduceIte, Resource.amount_add] at fit ⊢
    omega
  · simp only [here, ↓reduceIte] at fit ⊢
    omega

theorem posts_decrease (f : Figure) (p : Partition) (r : Resource) :
    Posts (·.decrease f p r) (.single f p r) (fun _ _ _ => 0) := by
  intro u t shows _ g x d
  have now := shows g x d
  simp only [Tally.single, Usage.get_decrease]
  by_cases here : g = f ∧ x = p
  · obtain ⟨rfl, rfl⟩ := here
    simp only [and_self, ↓reduceIte, Resource.amount_sub]
    omega
  · simp only [here, ↓reduceIte]
    omega

theorem Posts.after {first second : Usage → Usage} {out inn out' inn' : Tally}
    (one : Posts first out inn) (two : Posts second out' inn')
    (apart : ∀ g x d, inn g x d = 0 ∨ out' g x d = 0) :
    Posts (fun u => second (first u)) (fun g x d => out g x d + out' g x d)
      (fun g x d => inn g x d + inn' g x d) := by
  intro u t shows fits
  simp only at fits
  have middle := one u t shows fun g x d => by
    have within := (u.get g x).amount_le_capacity d
    have now := shows g x d
    have fit := fits g x d
    rcases apart g x d with none | none <;> omega
  have final := two _ _ middle fun g x d => by
    have fit := fits g x d
    rcases apart g x d with none | none <;> omega
  intro g x d
  have reads := final g x d
  simp only at reads ⊢
  rcases apart g x d with none | none <;> omega

end ClusterLedger
