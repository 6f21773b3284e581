import ClusterLedger.Simulation
import Mathlib.Data.List.Basic
/- The names that a simulation gives to containers. A name ends in the digits of the number that was
   drawn for it, behind an underscore, and no digit is an underscore: whatever attempts are called,
   digits and underscores included, names drawn at different numbers differ. -/
namespace ClusterLedger.Simulation

def nameAt (a : AttemptId) (n : Nat) : ContainerId := ⟨s!"container_{a}_{sixDigits n}"⟩

theorem freshId_name (sim : Simulation) (a : AttemptId) :
    sim.freshId a = (nameAt a sim.nextContainer,
      { sim with nextContainer := sim.nextContainer + 1 }) := rfl

theorem pushn_toList (s : String) (c : Char) (k : Nat) :
    (s.pushn c k).toList = s.toList ++ List.replicate k c := by
  induction k with
  | zero => simp [String.pushn, Nat.repeat]
  | succ k ih =>
    have pushed : s.pushn c (k + 1) = (s.pushn c k).push c := rfl
    rw [pushed, String.toList_push, ih, List.replicate_succ', List.append_assoc]

theorem sixDigits_toList (n : Nat) : ∃ zeros,
    (sixDigits n).toList = List.replicate zeros '0' ++ Nat.toDigits 10 n := by
  refine ⟨6 - (toString n).length, ?_⟩
  simp only [sixDigits, String.toList_append, pushn_toList, Nat.toString_eq_ofList_toDigits,
    String.toList_ofList, String.toList_empty, List.nil_append]

theorem sixDigits_value (n : Nat) : Nat.ofDigitChars 10 (sixDigits n).toList 0 = n := by
  have padded : ∀ zeros, Nat.ofDigitChars 10 (List.replicate zeros '0') 0 = 0 := by
    intro zeros
    induction zeros with
    | zero => rfl
    | succ zeros ih =>
      rw [List.replicate_succ, Nat.ofDigitChars_cons]
      exact ih
  obtain ⟨zeros, digits⟩ := sixDigits_toList n
  rw [digits, Nat.ofDigitChars_append, padded, Nat.ofDigitChars_ten_toDigits]

theorem sixDigits_plain (n : Nat) : '_' ∉ (sixDigits n).toList := by
  obtain ⟨zeros, digits⟩ := sixDigits_toList n
  rw [digits, List.mem_append, not_or]
  constructor
  · intro padding
    exact absurd (List.eq_of_mem_replicate padding) (by decide)
  · intro digit
    exact absurd (Nat.isDigit_of_mem_toDigits (by decide) (by decide) digit) (by decide)

theorem behind_last {α : Type} [DecidableEq α] {separator : α} {x y tail tail' : List α}
    (plain : separator ∉ tail) (plain' : separator ∉ tail')
    (same : x ++ separator :: tail = y ++ separator :: tail') : tail = tail' := by
  -- Read backwards, a tail is what comes before the first separator.
  have read : ∀ (front back : List α), separator ∉ back →
      (front ++ separator :: back).reverse.takeWhile (· != separator) = back.reverse := by
    intro front back plain
    have taken : ∀ c ∈ back.reverse, (c != separator) = true := by
      intro c member
      refine bne_iff_ne.mpr ?_
      rintro rfl
      exact plain (List.mem_reverse.mp member)
    simp [List.takeWhile_append_of_pos taken]
  have again := congrArg (·.reverse.takeWhile (· != separator)) same
  rw [read x tail plain, read y tail' plain'] at again
  exact List.reverse_inj.mp again

theorem nameAt_toList (a : AttemptId) (n : Nat) : (nameAt a n).text.toList =
    ("container_".toList ++ a.text.toList) ++ '_' :: (sixDigits n).toList := by
  simp [nameAt, toString]

theorem nameAt_number {a b : AttemptId} {m n : Nat} (same : nameAt a m = nameAt b n) : m = n := by
  have texts := congrArg (fun id : ContainerId => id.text.toList) same
  simp only [nameAt_toList] at texts
  have digits := behind_last (sixDigits_plain m) (sixDigits_plain n) texts
  rw [← sixDigits_value m, digits, sixDigits_value]

/-- Names drawn one after another for these attempts, the first one at `n`. -/
def namesFrom (n : Nat) : List AttemptId → List ContainerId
  | [] => []
  | a :: rest => nameAt a n :: namesFrom (n + 1) rest

theorem namesFrom_append (n : Nat) (l l' : List AttemptId) :
    namesFrom n (l ++ l') = namesFrom n l ++ namesFrom (n + l.length) l' := by
  induction l generalizing n with
  | nil => rfl
  | cons a l ih =>
    simp only [List.cons_append, namesFrom, ih, List.length_cons]
    rw [Nat.add_right_comm, Nat.add_assoc]

@[simp] theorem namesFrom_length (n : Nat) (l : List AttemptId) :
    (namesFrom n l).length = l.length := by
  induction l generalizing n with
  | nil => rfl
  | cons a l ih => simp [namesFrom, ih]

theorem number_of_namesFrom {n : Nat} {l : List AttemptId} {id : ContainerId}
    (member : id ∈ namesFrom n l) : ∃ a m, n ≤ m ∧ id = nameAt a m := by
  induction l generalizing n with
  | nil => simp [namesFrom] at member
  | cons a l ih =>
    rcases List.mem_cons.mp member with rfl | later
    · exact ⟨a, n, Nat.le_refl n, rfl⟩
    · obtain ⟨b, m, after, rfl⟩ := ih later
      exact ⟨b, m, by omega, rfl⟩

theorem namesFrom_nodup (n : Nat) (l : List AttemptId) : (namesFrom n l).Nodup := by
  induction l generalizing n with
  | nil => exact List.nodup_nil
  | cons a l ih =>
    refine List.nodup_cons.mpr ⟨fun again => ?_, ih (n + 1)⟩
    obtain ⟨b, m, after, same⟩ := number_of_namesFrom again
    have number := nameAt_number same
    omega

end ClusterLedger.Simulation
