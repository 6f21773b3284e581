import ClusterLedger.Document.Scan
import Mathlib.Data.List.TakeDrop
/- What the scanners read of what was written: digits of whole numbers, escaped characters, and
   texts that are put together character by character. -/
namespace ClusterLedger.Scan

theorem isDigit_eq (c : Char) : isDigit c = c.isDigit := by
  simp only [isDigit, Char.isDigit, Char.le_def, ge_iff_le]

/-- The text does not go on with such a character. -/
def Stops (p : Char → Bool) (cs : List Char) : Prop := ∀ c ∈ cs.head?, p c = false

theorem span_word {p : Char → Bool} {word rest : List Char} (inside : ∀ c ∈ word, p c = true)
    (stops : Stops p rest) : (word ++ rest).span p = (word, rest) := by
  rw [List.span_eq_takeWhile_dropWhile, List.takeWhile_append_of_pos inside,
    List.dropWhile_append_of_pos inside]
  cases rest with
  | nil => simp
  | cons c rest => simp [stops c rfl]

theorem dropWhile_stops {p : Char → Bool} {cs : List Char} (stops : Stops p cs) :
    cs.dropWhile p = cs := by
  cases cs with
  | nil => rfl
  | cons c cs => exact List.dropWhile_cons_of_neg (by simp [stops c rfl])

section Digits
variable (n : Nat)

theorem digits_all : ∀ c ∈ Nat.toDigits 10 n, isDigit c = true := fun c member => by
  rw [isDigit_eq]
  exact Nat.isDigit_of_mem_toDigits (by decide) (by decide) member

theorem digits_value : digitsValue 10 ((Nat.toDigits 10 n).map digitValue) = n := by
  have reads := Nat.ofDigitChars_ten_toDigits (n := n)
  rw [Nat.ofDigitChars] at reads
  rw [digitsValue, List.foldl_map]
  simpa only [Nat.mul_comm 10, digitValue] using reads

theorem digits_cons : ∃ c cs, Nat.toDigits 10 n = c :: cs ∧ isDigit c = true ∧
    (c = '0' → cs = []) := by
  obtain ⟨c, cs, split⟩ := List.exists_cons_of_ne_nil (Nat.toDigits_ne_nil (b := 10) (n := n))
  refine ⟨c, cs, split, digits_all n c (by simp [split]), ?_⟩
  rintro rfl
  induction n using Nat.strongRecOn generalizing cs with
  | ind n ih =>
    rcases Nat.lt_or_ge n 10 with small | large
    · rw [Nat.toDigits_of_lt_base small] at split
      exact (List.cons.inj split).2.symm
    · rw [Nat.toDigits_of_base_le (by decide) large] at split
      obtain ⟨d, ds, front⟩ :=
        List.exists_cons_of_ne_nil (Nat.toDigits_ne_nil (b := 10) (n := n / 10))
      rw [front] at split
      obtain ⟨rfl, _⟩ := List.cons.inj split
      obtain rfl := ih (n / 10) (by omega) ds front
      -- What leads a number of several digits is not zero.
      have value := Nat.ofDigitChars_ten_toDigits (n := n / 10)
      rw [front] at value
      have zero : Nat.ofDigitChars 10 ['0'] 0 = 0 := rfl
      omega

theorem spanDigits_digits {rest : List Char} (stops : Stops isDigit rest) :
    spanDigits (Nat.toDigits 10 n ++ rest) = (Nat.toDigits 10 n, rest) :=
  span_word (digits_all n) stops

end Digits

theorem toString_nat (n : Nat) : (toString n).toList = Nat.toDigits 10 n := by
  rw [Nat.toString_eq_ofList_toDigits, String.toList_ofList]

theorem toString_int (n : Int) : (toString n).toList =
    if n < 0 then '-' :: Nat.toDigits 10 n.natAbs else Nat.toDigits 10 n.natAbs := by
  cases n with
  | ofNat n => exact toString_nat n
  | negSucc n =>
    have written : (toString (Int.negSucc n)).toList = ("-" ++ toString (n + 1)).toList := rfl
    rw [written, String.toList_append, toString_nat]
    simp [Int.negSucc_lt_zero, Int.natAbs_negSucc]

theorem int_starts (n : Int) : ∃ c cs, (toString n).toList = c :: cs ∧
    ∀ {marks : List Char}, (marks.all fun d => d != '-' && !isDigit d) = true → c ∉ marks := by
  obtain ⟨c, cs, split, digit, -⟩ := digits_cons n.natAbs
  rw [toString_int]
  split
  · refine ⟨_, _, rfl, fun others mark => ?_⟩
    exact absurd (List.all_eq_true.mp others _ mark) (by decide)
  · refine ⟨c, cs, split, fun others mark => ?_⟩
    have other := List.all_eq_true.mp others c mark
    simp [digit] at other

theorem foldl_toList {α : Type} (f : α → String) (l : List α) (s : String) :
    (l.foldl (fun out x => out ++ f x) s).toList = s.toList ++ l.flatMap fun x => (f x).toList := by
  induction l generalizing s with
  | nil => simp
  | cons x l ih => simp [ih]

section Quotes

def escaped (write : Char → String) (cs : List Char) : List Char :=
  cs.flatMap fun c => (write c).toList

/-- The reader takes back what is written of each character, and the closing quote ends the text. -/
structure Unescapes (write : Char → String) (read : Nat → List Char → Reader String) : Prop where
  written : ∀ c, 0 < (write c).toList.length
  char : ∀ fuel seen c rest,
    read (fuel + 1) seen ((write c).toList ++ rest) = read fuel (c :: seen) rest
  quote : ∀ fuel seen rest, read (fuel + 1) seen ('"' :: rest) = some (.ofList seen.reverse, rest)

variable {write : Char → String} {read : Nat → List Char → Reader String}

theorem quoted_toList (s : String) :
    (s.toList.foldl (fun out c => out ++ write c) "\"" ++ "\"").toList =
      '"' :: (escaped write s.toList ++ ['"']) := by
  rw [String.toList_append, foldl_toList]
  rfl

theorem Unescapes.length (back : Unescapes write read) (cs : List Char) :
    cs.length ≤ (escaped write cs).length := by
  induction cs with
  | nil => exact Nat.le_refl 0
  | cons c cs ih =>
    have written := back.written c
    simp only [escaped, List.flatMap_cons, List.length_append, List.length_cons] at ih ⊢
    omega

theorem Unescapes.escaped (back : Unescapes write read) (cs rest : List Char) (fuel : Nat)
    (seen : List Char) (enough : cs.length < fuel) :
    read fuel seen (escaped write cs ++ '"' :: rest) =
      some (.ofList (seen.reverse ++ cs), rest) := by
  induction cs generalizing fuel seen with
  | nil =>
    obtain ⟨fuel, rfl⟩ := Nat.exists_eq_add_of_lt enough
    simpa [Scan.escaped] using back.quote (0 + fuel) seen rest
  | cons c cs ih =>
    obtain ⟨fuel, rfl⟩ : ∃ k, fuel = k + 1 := ⟨fuel - 1, by simp at enough; omega⟩
    rw [Scan.escaped, List.flatMap_cons, List.append_assoc, back.char, ← Scan.escaped,
      ih fuel (c :: seen) (by simpa using enough)]
    simp

theorem Unescapes.text (back : Unescapes write read) (s : String) (rest : List Char) {fuel : Nat}
    (enough : (Scan.escaped write s.toList ++ '"' :: rest).length ≤ fuel) :
    read fuel [] (Scan.escaped write s.toList ++ '"' :: rest) = some (s, rest) := by
  have long := back.length s.toList
  rw [back.escaped _ _ _ _ (by simp at enough; omega)]
  simp

end Quotes

theorem charOf_self (c : Char) : charOf? c.toNat = some c := by
  have valid : c.toNat.isValidChar := c.valid
  simp [charOf?, valid]

theorem hexDigits_pair {high low : Char} {code : Nat} (rest : List Char)
    (first : digitIn? 16 high = some (code / 16)) (second : digitIn? 16 low = some (code % 16)) :
    hexDigits 4 ('0' :: '0' :: high :: low :: rest) = some (code, rest) := by
  have zero : digitIn? 16 '0' = some 0 := rfl
  simp [hexDigits, zero, first, second, digitsValue]
  omega

end ClusterLedger.Scan
