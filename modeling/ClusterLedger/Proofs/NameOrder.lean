import ClusterLedger.Proofs.Numbering
import Mathlib.Algebra.Order.Ring.Nat
/- The order of the names that a simulation draws. Names are compared as texts: where one has more
   digits than the other, only as many of them count as the shorter has. -/
namespace ClusterLedger.Simulation

section Digits
variable {x y z : List Char}

def valueOf (digits : List Char) : Nat := Nat.ofDigitChars 10 digits 0

theorem valueOf_append (x y : List Char) :
    valueOf (x ++ y) = 10 ^ y.length * valueOf x + valueOf y := by
  rw [valueOf, Nat.ofDigitChars_append, Nat.ofDigitChars_eq_ofDigitChars_zero]
  rfl

theorem valueOf_cons (c : Char) (x : List Char) :
    valueOf (c :: x) = 10 ^ x.length * (c.toNat - 48) + valueOf x := by
  rw [← List.singleton_append, valueOf_append]
  simp [valueOf, Nat.ofDigitChars_cons]

theorem char_lt_iff {c d : Char} : c < d ↔ c.toNat < d.toNat := UInt32.lt_iff_toNat_lt

theorem char_eq_iff {c d : Char} : c = d ↔ c.toNat = d.toNat := Char.toNat_inj.symm

theorem isDigit_bounds {c : Char} (digit : c.isDigit = true) : 48 ≤ c.toNat ∧ c.toNat ≤ 57 := by
  simpa [Char.isDigit, UInt32.le_iff_toNat_le] using digit

theorem valueOf_lt (digits : ∀ c ∈ x, c.isDigit = true) : valueOf x < 10 ^ x.length := by
  induction x with
  | nil => simp [valueOf]
  | cons c x ih =>
    obtain ⟨first, rest⟩ := List.forall_mem_cons.mp digits
    have bounds := isDigit_bounds first
    have small : c.toNat - 48 ≤ 9 := by omega
    have step := Nat.mul_le_mul_left (10 ^ x.length) small
    have below := ih rest
    rw [valueOf_cons, List.length_cons, Nat.pow_succ]
    omega

theorem lt_iff_valueOf (length : x.length = y.length) (digits : ∀ c ∈ x, c.isDigit = true)
    (digits' : ∀ c ∈ y, c.isDigit = true) : x < y ↔ valueOf x < valueOf y := by
  induction x generalizing y with
  | nil =>
    obtain rfl := List.length_eq_zero_iff.mp length.symm
    simp
  | cons c x ih =>
    obtain ⟨d, y, rfl⟩ := List.exists_cons_of_length_eq_add_one length.symm
    have length := Nat.succ.inj length
    obtain ⟨first, rest⟩ := List.forall_mem_cons.mp digits
    obtain ⟨first', rest'⟩ := List.forall_mem_cons.mp digits'
    have bounds := isDigit_bounds first
    have bounds' := isDigit_bounds first'
    have small := valueOf_lt rest
    have small' := valueOf_lt rest'
    rw [List.cons_lt_cons_iff, ih length rest rest', valueOf_cons, valueOf_cons, ← length,
      char_lt_iff, char_eq_iff]
    rw [← length] at small'
    -- The first digits decide unless they are the same.
    rcases Nat.lt_trichotomy c.toNat d.toNat with lt | same | gt
    · have step : 10 ^ x.length * (c.toNat - 48 + 1) ≤ 10 ^ x.length * (d.toNat - 48) :=
        Nat.mul_le_mul_left _ (by omega)
      rw [Nat.mul_add, Nat.mul_one] at step
      omega
    · rw [same]
      omega
    · have step : 10 ^ x.length * (d.toNat - 48 + 1) ≤ 10 ^ x.length * (c.toNat - 48) :=
        Nat.mul_le_mul_left _ (by omega)
      rw [Nat.mul_add, Nat.mul_one] at step
      omega

/-- A text comes before a longer one unless what leads of that comes before it. -/
theorem lt_append_iff (length : x.length = y.length) (longer : z ≠ []) : x < y ++ z ↔ ¬ y < x := by
  induction x generalizing y with
  | nil =>
    obtain rfl := List.length_eq_zero_iff.mp length.symm
    obtain ⟨c, z, rfl⟩ := List.exists_cons_of_ne_nil longer
    simp
  | cons c x ih =>
    obtain ⟨d, y, rfl⟩ := List.exists_cons_of_length_eq_add_one length.symm
    rw [List.cons_append, List.cons_lt_cons_iff, List.cons_lt_cons_iff, ih (Nat.succ.inj length),
      char_lt_iff, char_lt_iff, char_eq_iff, char_eq_iff]
    by_cases before : y < x <;> simp only [before, not_true, not_false_eq_true, and_true, and_false,
      or_false] <;> omega

end Digits

/-- How many digits the name of a number ends in: six, or more where six do not do. -/
def width (n : Nat) : Nat := (sixDigits n).length

theorem width_eq (n : Nat) : width n = max 6 (Nat.toDigits 10 n).length := by
  simp only [width, sixDigits, ← String.length_toList, String.toList_append, pushn_toList,
    Nat.toString_eq_ofList_toDigits, String.toList_ofList, String.toList_empty, List.nil_append,
    List.length_append, List.length_replicate]
  omega

theorem width_mono {m n : Nat} (le : m ≤ n) : width m ≤ width n := by
  have least : 1 ≤ (Nat.toDigits 10 n).length := Nat.length_toDigits_pos
  have within : n < 10 ^ (Nat.toDigits 10 n).length :=
    (Nat.length_toDigits_le_iff (by decide) least).mp (Nat.le_refl _)
  have short : (Nat.toDigits 10 m).length ≤ (Nat.toDigits 10 n).length :=
    (Nat.length_toDigits_le_iff (by decide) least).mpr (by omega)
  rw [width_eq, width_eq]
  omega

theorem sixDigits_digits (n : Nat) : ∀ c ∈ (sixDigits n).toList, c.isDigit = true := by
  obtain ⟨zeros, digits⟩ := sixDigits_toList n
  intro c member
  rw [digits, List.mem_append] at member
  rcases member with padding | digit
  · rw [List.eq_of_mem_replicate padding]
    rfl
  · exact Nat.isDigit_of_mem_toDigits (by decide) (by decide) digit

theorem nameAt_lt_iff_digits (a : AttemptId) (m n : Nat) :
    compare (nameAt a m) (nameAt a n) = .lt ↔ (sixDigits m).toList < (sixDigits n).toList := by
  have texts : compare (nameAt a m) (nameAt a n) = .lt ↔
      (nameAt a m).text.toList < (nameAt a n).text.toList := compareOfLessAndEq_eq_lt
  have front : ∀ p x y : List Char, p ++ x < p ++ y ↔ x < y := by
    intro p x y
    induction p with
    | nil => rfl
    | cons c p ih => rw [List.cons_append, List.cons_append, List.cons_lt_cons_self, ih]
  rw [texts, nameAt_toList, nameAt_toList, front, List.cons_lt_cons_self]

/-- Of two names of an attempt the one with the lower number comes first if and only if its number is
    at most what leads the other, in as many digits as its own name has. -/
theorem nameAt_lt_iff (a : AttemptId) {m n : Nat} (lt : m < n) :
    compare (nameAt a m) (nameAt a n) = .lt ↔ m ≤ n / 10 ^ (width n - width m) := by
  have value : ∀ n, valueOf (sixDigits n).toList = n := sixDigits_value
  have length : ∀ n, (sixDigits n).toList.length = width n := fun n => String.length_toList
  have wide := width_mono (Nat.le_of_lt lt)
  have digits := sixDigits_digits m
  have digits' := sixDigits_digits n
  rw [nameAt_lt_iff_digits]
  by_cases same : width m = width n
  · rw [lt_iff_valueOf (by rw [length, length, same]) digits digits', value, value, same, Nat.sub_self,
      Nat.pow_zero, Nat.div_one]
    omega
  · -- The longer name is what leads it, as far as the other goes, and the rest.
    obtain ⟨lead, rest, split, long⟩ : ∃ lead rest, (sixDigits n).toList = lead ++ rest ∧
        lead.length = width m :=
      ⟨_, _, (List.take_append_drop (width m) _).symm, by rw [List.length_take, length]; omega⟩
    have left : rest.length = width n - width m := by
      have whole := length n
      rw [split, List.length_append] at whole
      omega
    rw [split] at digits'
    have small := valueOf_lt fun c member => digits' c (List.mem_append_right _ member)
    have leads : n / 10 ^ (width n - width m) = valueOf lead := by
      have parts : n = 10 ^ rest.length * valueOf lead + valueOf rest := by
        rw [← valueOf_append, ← split, value]
      rw [← left, parts, Nat.mul_add_div (Nat.pow_pos (by decide)), Nat.div_eq_of_lt small,
        Nat.add_zero]
    have longer : rest ≠ [] := by
      rintro rfl
      simp at left
      omega
    rw [leads, split, lt_append_iff (by rw [length, long]) longer, lt_iff_valueOf (by rw [length, long])
      (fun c member => digits' c (List.mem_append_left _ member)) digits, value]
    omega

end ClusterLedger.Simulation
