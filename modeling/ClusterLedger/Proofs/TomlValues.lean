import ClusterLedger.Document.Toml.Writer
import ClusterLedger.Proofs.Scan
/- Values and keys of TOML, as they are written, read back. A value ends with its line. -/
namespace ClusterLedger.Toml
open Scan

section Text

theorem hexDigit_value : ∀ d < 16, digitIn? 16 (hexDigit d) = some d := by decide

theorem small_of_not_plain {c : Char} (control : isPlain c = false) : c.toNat < 256 := by
  simp only [isPlain, Bool.or_eq_false_iff, Bool.and_eq_false_iff, decide_eq_false_iff_not,
    bne_eq_false_iff_eq] at control
  omega

theorem readEscape_control {code : Nat} (small : code < 256) (rest : List Char) :
    readEscape ('u' :: '0' :: '0' :: hexDigit (code / 16) :: hexDigit code :: rest) =
      (charOf? code).map (·, rest) := by
  have low : hexDigit code = hexDigit (code % 16) := by simp [hexDigit]
  have read := hexDigits_pair rest (hexDigit_value (code / 16) (by omega))
    (low ▸ hexDigit_value (code % 16) (Nat.mod_lt _ (by decide)))
  simp only [readEscape, read, bind, Option.bind_some]
  cases charOf? code <;> rfl

theorem readLineText_char (fuel : Nat) (seen : List Char) (c : Char) (rest : List Char) :
    readLineText '"' (fuel + 1) seen ((writeChar c).toList ++ rest) =
      readLineText '"' fuel (c :: seen) rest := by
  unfold writeChar
  split
  case h_8 quote backslash newline return_ tab backspace feed =>
    split
    · rename_i plain
      have unquoted : c ≠ '"' := quote
      have unescaped : c ≠ '\\' := backslash
      simp [readLineText, unquoted, unescaped, plain]
    · rename_i control
      have read := readEscape_control (small_of_not_plain (by simpa using control)) rest
      rw [charOf_self, Option.map_some] at read
      simp [readLineText, read]
  all_goals simp [readLineText, readEscape]

theorem writeChar_starts (c : Char) : ∃ d ds, (writeChar c).toList = d :: ds ∧ d ≠ '"' := by
  unfold writeChar
  split
  case h_8 quote _ _ _ _ _ _ =>
    split
    · exact ⟨c, [], by simp, quote⟩
    · exact ⟨'\\', _, by simp; rfl, by decide⟩
  all_goals exact ⟨'\\', _, rfl, by decide⟩

theorem unescapes : Unescapes writeChar (readLineText '"') where
  written c := by
    obtain ⟨d, ds, written, _⟩ := writeChar_starts c
    simp [written]
  char := readLineText_char
  quote _ _ _ := by simp [readLineText]

theorem writeText_toList (s : String) :
    (writeText s).toList = '"' :: (escaped writeChar s.toList ++ ['"']) := quoted_toList s

theorem readLineText_writeText (s : String) (rest : List Char) :
    readLineText '"' (escaped writeChar s.toList ++ '"' :: rest).length []
      (escaped writeChar s.toList ++ '"' :: rest) = some (s, rest) :=
  unescapes.text s rest (Nat.le_refl _)

/-- No written text looks as if it went over several lines. -/
theorem readText_writeText (s : String) (rest : List Char) :
    readText '"' (escaped writeChar s.toList ++ '"' :: '\n' :: rest) = some (s, '\n' :: rest) := by
  have single : dropText ['"', '"'] (escaped writeChar s.toList ++ '"' :: '\n' :: rest) = none := by
    cases s.toList with
    | nil => simp [escaped, dropText]
    | cons c cs =>
      obtain ⟨d, ds, written, other⟩ := writeChar_starts c
      simp [escaped, written, dropText, Ne.symm other]
  rw [readText, single]
  exact readLineText_writeText s _

end Text

section Number
variable {digits : List Char} (all : ∀ c ∈ digits, isDigit c = true) (rest : List Char)

/-- A field of a date or a time takes digits only, so that the end of the line is left. -/
theorem readField_digits {count least most n : Nat} {after : List Char}
    (read : readField count least most (digits ++ '\n' :: rest) = some (n, after)) :
    after = digits.drop count ++ '\n' :: rest := by
  simp only [readField] at read
  split at read
  · rename_i front
    split at read
    · obtain ⟨-, rfl⟩ := Prod.mk.inj (Option.some.inj read)
      have short : count ≤ digits.length := by
        by_contra long
        -- Otherwise the end of the line would be one of the digits.
        have member : '\n' ∈ (digits ++ '\n' :: rest).take count := by
          obtain ⟨k, more⟩ : ∃ k, count - digits.length = k + 1 :=
            ⟨count - digits.length - 1, by omega⟩
          simp [List.take_append, more]
        exact absurd (List.all_eq_true.mp front.2 '\n' member) (by decide)
      exact List.drop_append_of_le_length short
    · contradiction
  · contradiction

include all

theorem dropText_digits {c : Char} (other : isDigit c = false) (line : c ≠ '\n') (count : Nat) :
    dropText [c] (digits.drop count ++ '\n' :: rest) = none := by
  cases left : digits.drop count with
  | nil => simp [dropText, line]
  | cons d ds =>
    have apart : c ≠ d := by
      rintro rfl
      have digit := all c (List.mem_of_mem_drop (left ▸ List.mem_cons_self))
      exact absurd digit (by simp [other])
    simp [dropText, apart]

theorem readMoment_digits : readMoment (digits ++ '\n' :: rest) = none := by
  have date : skipDate (digits ++ '\n' :: rest) = none := by
    simp only [skipDate, bind, Option.bind_eq_none_iff]
    rintro ⟨year, after⟩ read after' hyphen
    rw [readField_digits rest read, dropText_digits all rest (by decide) (by decide)] at hyphen
    contradiction
  have time : skipTime (digits ++ '\n' :: rest) = none := by
    simp only [skipTime, bind, Option.bind_eq_none_iff]
    rintro ⟨hour, after⟩ read after' colon
    rw [readField_digits rest read, dropText_digits all rest (by decide) (by decide)] at colon
    contradiction
  rw [readMoment, date, time]
  rfl

theorem readDigits_line (nonempty : digits ≠ []) (fuel : Nat) (enough : digits.length ≤ fuel) :
    readDigits isDigit fuel (digits ++ '\n' :: rest) = some (digits, '\n' :: rest) := by
  induction digits generalizing fuel with
  | nil => exact absurd rfl nonempty
  | cons c digits ih =>
    obtain ⟨fuel, rfl⟩ : ∃ k, fuel = k + 1 := ⟨fuel - 1, by simp at enough; omega⟩
    have digit := all c List.mem_cons_self
    cases digits with
    | nil =>
      have line : isDigit '\n' = false := rfl
      simp [readDigits, digit, line]
    | cons d digits =>
      have later : isDigit d = true := all d (by simp)
      have plain : d = '_' → False := by
        rintro rfl
        exact absurd later (by decide)
      have read := ih (fun c member => all c (List.mem_cons_of_mem _ member)) (by simp) fuel
        (by simpa using enough)
      simp only [List.cons_append] at read ⊢
      unfold readDigits
      simp [digit, later, read]

end Number

section Whole
variable (n : Nat) (rest : List Char)

theorem readWhole_digits :
    readWhole (Nat.toDigits 10 n ++ '\n' :: rest) = some (Nat.toDigits 10 n, '\n' :: rest) := by
  obtain ⟨c, cs, split, -, alone⟩ := digits_cons n
  by_cases zero : c = '0'
  · obtain rfl := zero
    rw [split, alone rfl]
    rfl
  · have read := readDigits_line (digits_all n) rest Nat.toDigits_ne_nil
      (Nat.toDigits 10 n ++ '\n' :: rest).length (by simp)
    rw [readWhole.eq_def]
    split
    · rename_i front
      rw [split, List.cons_append] at front
      exact absurd (List.cons.inj front).1 zero
    · exact read

theorem readFraction_line : readFraction ('\n' :: rest) = some (none, '\n' :: rest) := rfl

theorem readExponent_line : readExponent ('\n' :: rest) = some (none, '\n' :: rest) := rfl

theorem readSign_digits : readSign (Nat.toDigits 10 n ++ '\n' :: rest) =
    (false, Nat.toDigits 10 n ++ '\n' :: rest) := by
  obtain ⟨c, cs, split, digit, -⟩ := digits_cons n
  rw [split, List.cons_append, readSign.eq_def]
  split
  · rename_i plus
    obtain rfl := (List.cons.inj plus).1
    exact absurd digit (by decide)
  · rename_i minus
    obtain rfl := (List.cons.inj minus).1
    exact absurd digit (by decide)
  · rfl

theorem readDecimal_digits (negative : Bool) :
    readDecimal ((if negative then ['-'] else []) ++ (Nat.toDigits 10 n ++ '\n' :: rest)) =
      (integer? (if negative then -n else n)).map (·, '\n' :: rest) := by
  obtain ⟨c, cs, split, digit, -⟩ := digits_cons n
  have signed : readSign ((if negative then ['-'] else []) ++ (Nat.toDigits 10 n ++ '\n' :: rest)) =
      (negative, Nat.toDigits 10 n ++ '\n' :: rest) := by
    cases negative with
    | false => exact readSign_digits n rest
    | true => rfl
  have whole := readWhole_digits n rest
  unfold readDecimal
  rw [signed]
  dsimp only
  split
  · rename_i infinite
    rw [split, List.cons_append] at infinite
    obtain rfl := (List.cons.inj infinite).1
    exact absurd digit (by decide)
  · rename_i undefined
    rw [split, List.cons_append] at undefined
    obtain rfl := (List.cons.inj undefined).1
    exact absurd digit (by decide)
  · simp only [whole, bind, Option.bind_some, readFraction_line, readExponent_line, digits_value]
    cases integer? (if negative then -n else n) <;> simp

theorem int_line (n : Int) : ((toString n).toList ++ '\n' :: rest) =
    (if n < 0 then ['-'] else []) ++ (Nat.toDigits 10 n.natAbs ++ '\n' :: rest) := by
  rw [toString_int]
  split <;> simp

theorem readNumber_int {n : Int} (fits : integer? n = some (.int n)) :
    readNumber ((toString n).toList ++ '\n' :: rest) = some (.int n, '\n' :: rest) := by
  obtain ⟨c, cs, split, digit, alone⟩ := digits_cons n.natAbs
  have decimal : readDecimal ((toString n).toList ++ '\n' :: rest) =
      some (.int n, '\n' :: rest) := by
    have read := readDecimal_digits n.natAbs rest (decide (n < 0))
    simp only [decide_eq_true_eq] at read
    have value : (if n < 0 then -(n.natAbs : Int) else n.natAbs) = n := by
      split <;> omega
    rw [int_line, read, value, fits]
    rfl
  -- A number in another base has a letter as its second character.
  have other : ∀ mark after, isDigit mark = false → mark ≠ '\n' →
      (toString n).toList ++ '\n' :: rest ≠ '0' :: mark :: after := by
    intro mark after letter line same
    rw [int_line, split] at same
    by_cases negative : n < 0
    · simp [negative] at same
    · simp only [negative, ↓reduceIte, List.nil_append, List.cons_append, List.cons.injEq] at same
      obtain ⟨zero, behind⟩ := same
      rw [alone zero, List.nil_append, List.cons.injEq] at behind
      exact line behind.1.symm
  rw [readNumber.eq_def]
  split
  · rename_i hexadecimal
    exact absurd hexadecimal (other 'x' _ (by decide) (by decide))
  · rename_i octal
    exact absurd octal (other 'o' _ (by decide) (by decide))
  · rename_i binary
    exact absurd binary (other 'b' _ (by decide) (by decide))
  · exact decimal

theorem readMoment_int (n : Int) : readMoment ((toString n).toList ++ '\n' :: rest) = none := by
  rw [int_line]
  split
  · simp [readMoment, skipDate, skipTime, readField, isDigit]
  · exact readMoment_digits (digits_all n.natAbs) rest

end Whole

section Values

theorem readValue_number (depth : Nat) {c : Char} {cs : List Char}
    (unmarked : c ∉ ['"', '\'', '[', '\x7b', 't', 'f']) (timeless : readMoment (c :: cs) = none) :
    readValue depth (c :: cs) = readNumber (c :: cs) := by
  simp only [List.mem_cons, List.not_mem_nil, or_false, not_or] at unmarked
  rw [readValue.eq_def]
  split <;> simp_all

theorem readValue_written {d : Document} {text : String} (written : writeValue d = some text)
    (rest : List Char) (depth : Nat) :
    readValue depth (text.toList ++ '\n' :: rest) = some (d, '\n' :: rest) := by
  cases d with
  | bool b =>
    obtain rfl := Option.some.inj written
    cases b <;> simp [readValue, dropText]
  | int n =>
    obtain ⟨d, fits, rfl⟩ := Option.map_eq_some_iff.mp written
    have value : integer? n = some (.int n) := by
      simp only [integer?] at fits ⊢
      split at fits
      · rename_i bounds
        rw [if_pos bounds]
      · contradiction
    obtain ⟨c, cs, split, apart⟩ := int_starts n
    have read := readNumber_int rest value
    have date := readMoment_int rest n
    rw [split, List.cons_append] at read date ⊢
    rw [readValue_number depth (apart (by decide)) date, read]
  | text s =>
    obtain rfl := Option.some.inj written
    rw [writeText_toList, List.cons_append, List.append_assoc, List.singleton_append, readValue,
      readText_writeText]
    rfl
  | _ => contradiction

end Values

section Keys
variable (key : String)

theorem writeKey_cases :
    (writeKey key = key ∧ key.toList ≠ [] ∧ ∀ c ∈ key.toList, isBareKey c = true) ∨
    (writeKey key).toList = '"' :: (escaped writeChar key.toList ++ ['"']) := by
  unfold writeKey
  split
  · rename_i bare
    simp only [Bool.and_eq_true, List.all_eq_true, Bool.not_eq_true',
      String.isEmpty_eq_false_iff] at bare
    exact .inl ⟨rfl, mt String.toList_eq_nil_iff.mp bare.2, bare.1⟩
  · exact .inr (writeText_toList key)

theorem writeKey_starts : ∃ c cs, (writeKey key).toList = c :: cs ∧
    ∀ {marks : List Char}, (marks.all fun d => d != '"' && !isBareKey d) = true → c ∉ marks := by
  rcases writeKey_cases key with ⟨same, nonempty, bare⟩ | quoted
  · obtain ⟨c, cs, split⟩ := List.exists_cons_of_ne_nil nonempty
    have first := bare c (by simp [split])
    refine ⟨c, cs, by rw [same, split], fun others mark => ?_⟩
    have other := List.all_eq_true.mp others c mark
    simp [first] at other
  · refine ⟨_, _, quoted, fun others mark => ?_⟩
    exact absurd (List.all_eq_true.mp others _ mark) (by decide)

theorem readKeyPart_written {rest : List Char} (stops : Stops isBareKey rest) :
    readKeyPart ((writeKey key).toList ++ rest) = some (key, rest) := by
  rcases writeKey_cases key with ⟨same, nonempty, bare⟩ | quoted
  · obtain ⟨c, cs, split⟩ := List.exists_cons_of_ne_nil nonempty
    have first := bare c (by simp [split])
    have word := span_word bare stops
    have unquoted : ∀ {quote}, isBareKey quote = false → c ≠ quote := by
      rintro quote other rfl
      simp [other] at first
    rw [same, readKeyPart.eq_def]
    split
    · rename_i opened
      rw [split, List.cons_append, List.cons.injEq] at opened
      exact absurd opened.1 (unquoted rfl)
    · rename_i opened
      rw [split, List.cons_append, List.cons.injEq] at opened
      exact absurd opened.1 (unquoted rfl)
    · rw [word, split]
      simp [← split]
  · rw [quoted, List.cons_append, List.append_assoc, List.singleton_append, readKeyPart,
      readLineText_writeText]

theorem skipSpaces_key (rest : List Char) :
    skipSpaces ((writeKey key).toList ++ rest) = (writeKey key).toList ++ rest := by
  obtain ⟨c, cs, split, apart⟩ := writeKey_starts key
  have visible : c ∉ [' ', '\t'] := apart (by decide)
  have stops : Stops isSpace ((writeKey key).toList ++ rest) := by
    simpa [Stops, split, isSpace] using visible
  exact dropWhile_stops stops

theorem readKey_written {rest after : List Char} (stops : Stops isBareKey rest)
    (blanks : skipSpaces rest = after) (single : Stops (· == '.') after) :
    readKey ((writeKey key).toList ++ rest) = some (([], key), after) := by
  have parts : readKeyParts depthLimit ((writeKey key).toList ++ rest) = some ([key], after) := by
    obtain ⟨depth, deep⟩ : ∃ k, depthLimit = k + 1 := ⟨78, rfl⟩
    simp only [deep, readKeyParts, skipSpaces_key, readKeyPart_written key stops, bind,
      Option.bind_some, blanks]
    split
    · exact absurd (single '.' rfl) (by decide)
    · rfl
  simp [readKey, parts]

end Keys

end ClusterLedger.Toml
