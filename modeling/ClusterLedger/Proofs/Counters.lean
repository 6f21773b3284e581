import ClusterLedger.Proofs.Amount
import ClusterLedger.Proofs.Table
import Mathlib.Algebra.BigOperators.Finprod
/- The books of a usage against counters that know nothing of one another, one for each figure and
   partition. A transfer is a decrease and an increase, which may concern one partition. What is on
   record tells only which partitions were named and may be blank, never what a figure is. -/
namespace ClusterLedger

theorem Figures.eq_blank_iff {f : Figures} : f = {} ↔ ∀ g, f.get g = .zero := by
  constructor
  · rintro rfl g
    exact get_blank g
  · intro zero
    obtain ⟨used, reserved, amUsed, amResource⟩ := f
    obtain rfl := zero .used
    obtain rfl := zero .reserved
    obtain rfl := zero .amUsed
    obtain rfl := zero .amResource
    rfl

namespace Usage

inductive Call
  | increase (figure : Figure) (p : Partition) (r : Resource)
  | decrease (figure : Figure) (p : Partition) (r : Resource)
  | assign (figure : Figure) (p : Partition) (r : Resource)
  | transfer (figure : Figure) (source target : Partition) (r : Resource)
deriving DecidableEq, Repr

def call (u : Usage) : Call → Usage
  | .increase figure p r => u.increase figure p r
  | .decrease figure p r => u.decrease figure p r
  | .assign figure p r => u.assign figure p r
  | .transfer figure source target r => u.transfer figure source target r

inductive Change
  | increase
  | decrease
  | assign
deriving DecidableEq, Repr

structure Posting where
  change : Change
  figure : Figure
  partition : Partition
  resource : Resource
deriving DecidableEq, Repr

def Call.postings : Call → List Posting
  | .increase figure p r => [⟨.increase, figure, p, r⟩]
  | .decrease figure p r => [⟨.decrease, figure, p, r⟩]
  | .assign figure p r => [⟨.assign, figure, p, r⟩]
  | .transfer figure source target r =>
    [⟨.decrease, figure, source, r⟩, ⟨.increase, figure, target, r⟩]

namespace Posting

/-- What a posting does to a counter of its own, as wide as its dimension. -/
def count (x : Dimension) (n : Nat) (c : Posting) : Nat :=
  match c.change with
  | .increase => min x.capacity (n + c.resource.amount x)
  | .decrease => n - c.resource.amount x
  | .assign => c.resource.amount x

def concerns (c : Posting) (g : Figure) (p : Partition) : Bool := c.figure = g ∧ c.partition = p

end Posting

def post (u : Usage) (c : Posting) : Usage :=
  match c.change with
  | .increase => u.increase c.figure c.partition c.resource
  | .decrease => u.decrease c.figure c.partition c.resource
  | .assign => u.assign c.figure c.partition c.resource

theorem calls_post (u : Usage) (calls : List Call) :
    calls.foldl call u = (calls.flatMap Call.postings).foldl post u := by
  induction calls generalizing u with
  | nil => rfl
  | cons c calls ih =>
    rw [List.foldl_cons, List.flatMap_cons, List.foldl_append, ih]
    cases c <;> rfl

section Post
variable (u : Usage) (c : Posting) (g : Figure) (p : Partition) (x : Dimension)

theorem post_amount : ((u.post c).get g p).amount x =
    if c.concerns g p then c.count x ((u.get g p).amount x) else (u.get g p).amount x := by
  obtain ⟨change, figure, partition, r⟩ := c
  by_cases here : figure = g ∧ partition = p
  · obtain ⟨rfl, rfl⟩ := here
    cases change <;> simp [post, Posting.concerns, Posting.count, get_increase, get_decrease,
      get_assign, Resource.amount_add, Resource.amount_sub]
  · have other : ¬ (g = figure ∧ p = partition) := fun same => here ⟨same.1.symm, same.2.symm⟩
    cases change <;> simp [post, Posting.concerns, get_increase, get_decrease, get_assign, here,
      other]

theorem assign_recorded (r : Resource) :
    ((u.assign g p r).partitions.get? p).isSome := by
  simp [assign]

theorem decrease_recorded (r : Resource) : ((u.decrease g p r).partitions.get? p).isSome ↔
    ∃ f, (u.decrease g p r).get f p ≠ .zero := by
  obtain ⟨left, assigned⟩ :=
    Option.isSome_iff_exists.mp (assign_recorded u g p (u.get g p - r))
  have reads : ∀ f, (u.decrease g p r).get f p = left.get f := fun f => by
    rw [decrease, get_prune, get, figures, assigned, Option.getD_some]
  simp only [reads, ne_eq]
  rw [← not_forall, ← Figures.eq_blank_iff, decrease, prune, assigned]
  by_cases blank : left = {}
  · simp [blank]
  · simp [blank, assigned]

theorem assign_other {q : Partition} (other : q ≠ p) (r : Resource) :
    (u.assign g p r).partitions.get? q = u.partitions.get? q := by
  simp [assign, other]

theorem prune_other {q : Partition} (other : q ≠ p) :
    (u.prune p).partitions.get? q = u.partitions.get? q := by
  unfold prune
  split
  · simp [other]
  · rfl

theorem post_recorded : ((u.post c).partitions.get? p).isSome ↔
    if c.partition = p then (∃ g, (u.post c).get g p ≠ .zero) ∨ c.change ≠ .decrease
    else (u.partitions.get? p).isSome := by
  obtain ⟨change, figure, partition, r⟩ := c
  by_cases here : partition = p
  · subst here
    cases change with
    | increase => simpa [post, increase] using assign_recorded u figure partition _
    | decrease => simpa [post] using decrease_recorded u figure partition r
    | assign => simpa [post] using assign_recorded u figure partition r
  · have other : p ≠ partition := Ne.symm here
    cases change <;> simp [post, here, increase, decrease, prune_other, assign_other, other]

end Post

section Postings
variable (postings : List Posting) (g : Figure) (p : Partition) (x : Dimension)

theorem postings_amount (u : Usage) : ((postings.foldl post u).get g p).amount x =
    (postings.filter (·.concerns g p)).foldl (Posting.count x) ((u.get g p).amount x) := by
  induction postings generalizing u with
  | nil => rfl
  | cons c postings ih =>
    rw [List.foldl_cons, ih, post_amount, List.filter_cons]
    split <;> rfl

theorem postings_recorded : ((postings.foldl post {}).partitions.get? p).isSome ↔
    (∃ g, (postings.foldl post {}).get g p ≠ .zero) ∨
      ∃ c, (postings.filter (·.partition = p)).getLast? = some c ∧ c.change ≠ .decrease := by
  induction postings using List.reverseRecOn with
  | nil => simp [get, figures]
  | append_singleton postings c ih =>
    rw [List.foldl_append, List.foldl_cons, List.foldl_nil, post_recorded, List.filter_append]
    by_cases here : c.partition = p
    · simp [here]
    · have apart : ∀ g, c.concerns g p = false := by simp [Posting.concerns, here]
      have kept : ∀ g, ((postings.foldl post {}).post c).get g p =
          (postings.foldl post {}).get g p := fun g =>
        Resource.eq_of_amount fun x => by simp [post_amount, apart]
      simp [here, kept, ih]

end Postings

/-- A partition off the record adds nothing, so the total is a sum over all partitions. -/
theorem total_amount (u : Usage) (g : Figure) (x : Dimension) :
    (u.total g).amount x = min x.capacity (∑ᶠ p, (u.get g p).amount x) := by
  have distinct : u.partitions.keys.Nodup := List.pairwise_map.mpr <|
    u.partitions.ascending.imp fun {a b} lt same => by simp [same] at lt
  have recorded : Function.support (fun p => (u.get g p).amount x) ⊆
      (u.partitions.keys.toFinset : Set Partition) := by
    intro p nonzero
    cases found : u.partitions.get? p with
    | none => simp [get, figures, found] at nonzero
    | some f => simpa [Table.keys] using ⟨f, Table.mem_entries.mpr found⟩
  have listed : u.partitions.keys.map (fun p => (u.get g p).amount x) =
      (u.partitions.values.map (·.get g)).map (·.amount x) := by
    simp only [Table.keys, Table.values, List.map_map]
    refine List.map_congr_left fun e member => ?_
    have found : u.partitions.get? e.1 = some e.2 := Table.mem_entries.mp member
    simp [get, figures, found]
  rw [finsum_eq_sum_of_support_subset _ recorded, List.sum_toFinset _ distinct, listed]
  exact Resource.amount_sum _ x

/-- After any calls on empty books, a figure is what a counter of its own would show, which is moved
    by the postings on that figure of that partition alone. A partition is on record where one of
    its figures is not zero, and where the last posting to it was no decrease. Totals are sums over
    all partitions, cut to the widths once. -/
theorem figures_refine_counters (calls : List Call) :
    let u : Usage := calls.foldl call {}
    let postings := calls.flatMap Call.postings
    (∀ g p x, (u.get g p).amount x =
      (postings.filter (·.concerns g p)).foldl (Posting.count x) 0) ∧
    (∀ p, (u.partitions.get? p).isSome ↔ (∃ g, u.get g p ≠ .zero) ∨
      ∃ c, (postings.filter (·.partition = p)).getLast? = some c ∧ c.change ≠ .decrease) ∧
    ∀ g x, (u.total g).amount x = min x.capacity (∑ᶠ p, (u.get g p).amount x) := by
  intro u postings
  have posted : u = postings.foldl post {} := calls_post {} calls
  refine ⟨fun g p x => ?_, fun p => ?_, total_amount u⟩
  · rw [posted, postings_amount]
    simp [get, figures]
  · rw [posted]
    exact postings_recorded postings p

/-- A blank partition is on record once something was assigned to it. -/
example : (([.assign .amResource "gpu" .zero] : List Call).foldl call {}).partitions.get? "gpu" =
    some {} := by
  decide

end Usage
end ClusterLedger
