import ClusterLedger.Document.Json
import ClusterLedger.Proofs.Scan
/- JSON texts of documents read back. Floating-point numbers and moments are left out, since their
   texts need not read as themselves, and so is what nests deeper than the reader goes. -/
namespace ClusterLedger.Json
open Scan

section Text

theorem hexDigit_value : ∀ d < 16, digitIn? 16 (hexDigit d) = some d := by decide

theorem readUnicode_control {code : Nat} (small : code < 32) (rest : List Char) :
    readUnicode ('0' :: '0' :: hexDigit (code / 16) :: hexDigit code :: rest) =
      (charOf? code).map (·, rest) := by
  have low : hexDigit code = hexDigit (code % 16) := by simp [hexDigit]
  have read := hexDigits_pair rest (hexDigit_value (code / 16) (by omega))
    (low ▸ hexDigit_value (code % 16) (Nat.mod_lt _ (by decide)))
  have plain : ¬ (0xD800 ≤ code ∧ code < 0xDC00) := by omega
  simp only [readUnicode, read, bind, Option.bind_some, plain, ↓reduceIte]
  cases charOf? code <;> rfl

theorem readText_char (fuel : Nat) (seen : List Char) (c : Char) (rest : List Char) :
    readText (fuel + 1) seen ((writeChar c).toList ++ rest) = readText fuel (c :: seen) rest := by
  unfold writeChar
  split
  case h_8 quote backslash newline return_ tab backspace feed =>
    split
    · rename_i small
      have control := readUnicode_control small rest
      rw [charOf_self, Option.map_some] at control
      simp [readText, readEscape, control]
    · rename_i visible
      simp [readText, visible]
  all_goals simp [readText, readEscape]

theorem unescapes : Unescapes writeChar readText where
  written c := by
    unfold writeChar
    split <;> simp
    split <;> simp
  char := readText_char
  quote _ _ _ := rfl

theorem writeText_toList (s : String) :
    (writeText s).toList = '"' :: (escaped writeChar s.toList ++ ['"']) := quoted_toList s

theorem readText_writeText (s : String) (rest : List Char) :
    readText (escaped writeChar s.toList ++ '"' :: rest).length.succ []
      (escaped writeChar s.toList ++ '"' :: rest) = some (s, rest) :=
  unescapes.text s rest (Nat.le_succ _)

end Text

section Number

def continues (c : Char) : Bool := isDigit c || c == '.' || c == 'e' || c == 'E'

variable {rest : List Char} (ends : Stops continues rest)
include ends

theorem readFraction_absent : readFraction rest = some (none, rest) := by
  unfold readFraction
  split
  · exact absurd (ends '.' rfl) (by decide)
  · rfl

theorem readExponent_absent : readExponent rest = some (none, rest) := by
  unfold readExponent
  split
  · rename_i c rest
    have other := ends c rfl
    simp only [continues, Bool.or_eq_false_iff, beq_eq_false_iff_ne] at other
    simp [other]
  · rfl

theorem stops_digits : Stops isDigit rest := fun c ahead => by
  have other := ends c ahead
  simp only [continues, Bool.or_eq_false_iff] at other
  exact other.1.1.1

theorem readNumber_digits (n : Nat) :
    readNumber (Nat.toDigits 10 n ++ rest) = some (wholeNumber false (Nat.toDigits 10 n), rest) ∧
    readNumber ('-' :: (Nat.toDigits 10 n ++ rest)) =
      some (wholeNumber true (Nat.toDigits 10 n), rest) := by
  have digits := spanDigits_digits n (stops_digits ends)
  obtain ⟨c, cs, split, digit, alone⟩ := digits_cons n
  have unsigned : c ≠ '-' := by
    rintro rfl
    exact absurd digit (by decide)
  have leading : ((Nat.toDigits 10 n).isEmpty || ((Nat.toDigits 10 n).head? == some '0' &&
      decide (1 < (Nat.toDigits 10 n).length))) = false := by
    rw [split]
    by_cases zero : c = '0'
    · simp [zero, alone zero]
    · simp [zero]
  have whole := readFraction_absent ends
  have plain := readExponent_absent ends
  constructor
  · unfold readNumber
    split
    rename_i signed
    split at signed
    · rename_i minus
      rw [split] at minus
      exact absurd (List.cons.inj minus).1 unsigned
    · obtain ⟨rfl, rfl⟩ := signed
      simp [digits, leading, whole, plain]
  · simp [readNumber, digits, leading, whole, plain]

theorem readNumber_int {n : Int} (least : -9223372036854775808 ≤ n)
    (most : n < 18446744073709551616) :
    readNumber ((toString n).toList ++ rest) = some (.int n, rest) := by
  obtain ⟨plain, negative⟩ := readNumber_digits ends n.natAbs
  rw [toString_int]
  split
  · rw [List.cons_append, negative, wholeNumber, digits_value]
    rw [if_pos rfl, if_pos (by omega)]
    congr 3
    omega
  · have size : (UInt64.size : Int) = 18446744073709551616 := rfl
    rw [plain, wholeNumber, digits_value, if_neg Bool.false_ne_true, if_pos (by omega)]
    congr 3
    omega

end Number
/-- Documents that a text holds as they are: whole numbers of 64 bits, no field twice, and at most
    `depth` levels. -/
inductive Plain : Nat → Document → Prop
  | null {depth} : Plain depth .null
  | bool {depth} (b : Bool) : Plain depth (.bool b)
  | int {depth} {n : Int} (least : -9223372036854775808 ≤ n) (most : n < 18446744073709551616) :
      Plain depth (.int n)
  | text {depth} (s : String) : Plain depth (.text s)
  | list {depth items} (each : ∀ d ∈ items, Plain depth d) : Plain (depth + 1) (.list items)
  | object {depth fields} (distinct : (fields.map (·.1)).Nodup)
      (each : ∀ f ∈ fields, Plain depth f.2) : Plain (depth + 1) (.object fields)

theorem Plain.mono {k m : Nat} {d : Document} (plain : Plain k d) (le : k ≤ m) : Plain m d := by
  induction plain generalizing m with
  | null => exact .null
  | bool b => exact .bool b
  | int least most => exact .int least most
  | text s => exact .text s
  | list each ih =>
    obtain ⟨m, rfl⟩ : ∃ n, m = n + 1 := ⟨m - 1, by omega⟩
    exact .list fun d member => ih d member (by omega)
  | object distinct each ih =>
    obtain ⟨m, rfl⟩ : ∃ n, m = n + 1 := ⟨m - 1, by omega⟩
    exact .object distinct fun f member => ih f member (by omega)

/-- The text of the document is read by `item` where a document is expected, as far as it goes. -/
structure ReadBack (item : Reader Document) (d : Document) : Prop where
  starts : ∃ c cs, (write d).toList = c :: cs ∧ isBlank c = false ∧ c ≠ ']'
  reads : ∀ rest, Stops continues rest → item ((write d).toList ++ rest) = some (d, rest)

section Parts
variable {item : Reader Document} {d : Document} (rest : List Char)

theorem ReadBack.skip (back : ReadBack item d) :
    skipBlanks ((write d).toList ++ rest) = (write d).toList ++ rest := by
  obtain ⟨c, cs, split, visible, _⟩ := back.starts
  exact dropWhile_stops fun first ahead => by
    simp [split] at ahead
    rwa [← ahead]

theorem items_end : (writeItems []).toList = [']'] := rfl

theorem items_next (d : Document) (items : List Document) : (writeItems (d :: items)).toList =
    ',' :: ((write d).toList ++ (writeItems items).toList) := by
  have written : writeItems (d :: items) = "," ++ write d ++ writeItems items := rfl
  simp [written]

theorem fields_end : (writeFields []).toList = ['\x7d'] := rfl

def fieldChars (f : String × Document) : List Char :=
  (writeText f.1).toList ++ ':' :: (write f.2).toList

theorem fields_next (f : String × Document) (fields : List (String × Document)) :
    (writeFields (f :: fields)).toList = ',' :: (fieldChars f ++ (writeFields fields).toList) := by
  have written : writeFields (f :: fields) =
      "," ++ writeText f.1 ++ ":" ++ write f.2 ++ writeFields fields := rfl
  simp [written, fieldChars]

theorem stops_items (items : List Document) :
    Stops continues ((writeItems items).toList ++ rest) := by
  cases items <;> simp [Stops, items_end, items_next] <;> decide

theorem stops_fields (fields : List (String × Document)) :
    Stops continues ((writeFields fields).toList ++ rest) := by
  cases fields <;> simp [Stops, fields_end, fields_next] <;> decide

theorem items_length (items : List Document) : items.length < (writeItems items).toList.length := by
  induction items with
  | nil => simp [items_end]
  | cons d items ih =>
    simp only [items_next, List.length_append, List.length_cons]
    omega

theorem fields_length (fields : List (String × Document)) :
    fields.length < (writeFields fields).toList.length := by
  induction fields with
  | nil => simp [fields_end]
  | cons f fields ih =>
    simp only [fields_next, List.length_append, List.length_cons]
    omega

theorem readItems_one (first : ReadBack item d) (fuel : Nat) (seen : List Document)
    {after : List Char} (stops : Stops continues after) :
    (∀ {rest}, skipBlanks after = ',' :: rest →
      readItems item (fuel + 1) seen ((write d).toList ++ after) =
        readItems item fuel (d :: seen) rest) ∧
    ∀ {rest}, skipBlanks after = ']' :: rest →
      readItems item (fuel + 1) seen ((write d).toList ++ after) =
        some ((d :: seen).reverse, rest) := by
  constructor
  all_goals
    intro rest next
    simp only [readItems, first.skip, first.reads _ stops, bind, Option.bind_some, next]

theorem readItems_written (items : List Document) (first : ReadBack item d)
    (each : ∀ d ∈ items, ReadBack item d) (fuel : Nat) (seen : List Document) :
    readItems item (items.length + fuel + 1) seen
        ((write d).toList ++ ((writeItems items).toList ++ rest)) =
      some (seen.reverse ++ d :: items, rest) := by
  induction items generalizing d seen with
  | nil =>
    have closed : skipBlanks ((writeItems []).toList ++ rest) = ']' :: rest := rfl
    rw [(readItems_one first _ _ (stops_items rest [])).2 closed]
    simp
  | cons next items ih =>
    have comma : skipBlanks ((writeItems (next :: items)).toList ++ rest) =
        ',' :: ((write next).toList ++ ((writeItems items).toList ++ rest)) := by
      rw [items_next, List.cons_append, List.append_assoc]
      rfl
    rw [(readItems_one first _ _ (stops_items rest (next :: items))).1 comma, List.length_cons,
      Nat.add_right_comm items.length]
    have further : ∀ d ∈ items, ReadBack item d := fun d member => each d (by simp [member])
    refine (ih (each next (by simp)) further (d :: seen)).trans ?_
    simp

theorem putField_new {name : String} {seen : List (String × Document)}
    (new : name ∉ seen.map (·.1)) : putField name d seen = (name, d) :: seen := by
  unfold putField
  rw [if_neg]
  simpa using new

theorem readFields_one {f : String × Document} (first : ReadBack item f.2) (fuel : Nat)
    {seen : List (String × Document)} (new : f.1 ∉ seen.map (·.1)) {after : List Char}
    (stops : Stops continues after) :
    (∀ {rest}, skipBlanks after = ',' :: rest →
      readFields item (fuel + 1) seen (fieldChars f ++ after) =
        readFields item fuel (f :: seen) rest) ∧
    ∀ {rest}, skipBlanks after = '\x7d' :: rest →
      readFields item (fuel + 1) seen (fieldChars f ++ after) =
        some ((f :: seen).reverse, rest) := by
  have opened : fieldChars f ++ after =
      '"' :: (escaped writeChar f.1.toList ++ '"' :: ':' :: ((write f.2).toList ++ after)) := by
    simp [fieldChars, writeText_toList]
  have quote : ∀ cs, skipBlanks ('"' :: cs) = '"' :: cs := fun _ => rfl
  have colon : ∀ cs, skipBlanks (':' :: cs) = ':' :: cs := fun _ => rfl
  constructor
  all_goals
    intro rest next
    simp only [opened, readFields, quote, readText_writeText, colon, first.skip,
      first.reads _ stops, next, putField_new new, bind, Option.bind_some]

theorem unseen {f : String × Document} {seen fields : List (String × Document)}
    (distinct : ((seen.reverse ++ f :: fields).map (·.1)).Nodup) : f.1 ∉ seen.map (·.1) := by
  intro again
  rw [List.map_append, List.nodup_append] at distinct
  exact distinct.2.2 f.1 (by simpa using again) f.1 (by simp) rfl

theorem readFields_written (f : String × Document) (fields : List (String × Document))
    (first : ReadBack item f.2) (each : ∀ f ∈ fields, ReadBack item f.2) (fuel : Nat)
    (seen : List (String × Document)) (distinct : ((seen.reverse ++ f :: fields).map (·.1)).Nodup) :
    readFields item (fields.length + fuel + 1) seen
        (fieldChars f ++ ((writeFields fields).toList ++ rest)) =
      some (seen.reverse ++ f :: fields, rest) := by
  induction fields generalizing f seen with
  | nil =>
    have new := unseen distinct
    have closed : skipBlanks ((writeFields []).toList ++ rest) = '\x7d' :: rest := rfl
    rw [(readFields_one first _ new (stops_fields rest [])).2 closed]
    simp
  | cons next fields ih =>
    have new := unseen distinct
    have comma : skipBlanks ((writeFields (next :: fields)).toList ++ rest) =
        ',' :: (fieldChars next ++ ((writeFields fields).toList ++ rest)) := by
      rw [fields_next, List.cons_append, List.append_assoc]
      rfl
    rw [(readFields_one first _ new (stops_fields rest (next :: fields))).1 comma,
      List.length_cons, Nat.add_right_comm fields.length]
    refine (ih next (each next (by simp)) (fun d member => each d (by simp [member])) (f :: seen)
      (by simpa using distinct)).trans ?_
    simp

end Parts

section Documents

theorem readDocument_number (depth : Nat) {c : Char} (cs : List Char)
    (unmarked : c ∉ ['"', '[', '\x7b', 'n', 't', 'f']) :
    readDocument depth (c :: cs) = readNumber (c :: cs) := by
  simp only [List.mem_cons, List.not_mem_nil, or_false, not_or] at unmarked
  rw [readDocument.eq_def]
  split <;> simp_all

theorem readBack_int {n : Int} (least : -9223372036854775808 ≤ n)
    (most : n < 18446744073709551616) (depth : Nat) : ReadBack (readDocument depth) (.int n) := by
  obtain ⟨c, cs, split, apart⟩ := int_starts n
  have visible : c ∉ [' ', '\n', '\t', '\r'] := apart (by decide)
  have further : c ∉ [']'] := apart (by decide)
  refine ⟨⟨c, cs, split, by simpa [isBlank, and_assoc] using visible, by simpa using further⟩,
    fun rest ends => ?_⟩
  have read := readNumber_int ends least most
  rw [split, List.cons_append] at read
  have chars : (write (.int n)).toList = c :: cs := split
  rw [chars, List.cons_append, readDocument_number depth _ (apart (by decide)), read]

theorem readBack_word (depth : Nat) {d : Document} (word : d = .null ∨ ∃ b, d = .bool b) :
    ReadBack (readDocument depth) d := by
  obtain rfl | ⟨_ | _, rfl⟩ := word
  · exact ⟨⟨'n', _, rfl, by decide⟩, fun rest _ => by cases depth <;> rfl⟩
  · exact ⟨⟨'f', _, rfl, by decide⟩, fun rest _ => by cases depth <;> rfl⟩
  · exact ⟨⟨'t', _, rfl, by decide⟩, fun rest _ => by cases depth <;> rfl⟩

theorem readBack_text (depth : Nat) (s : String) : ReadBack (readDocument depth) (.text s) := by
  have chars : (write (.text s)).toList = '"' :: (escaped writeChar s.toList ++ ['"']) :=
    writeText_toList s
  refine ⟨⟨'"', _, chars, by decide⟩, fun rest _ => ?_⟩
  have quoted : ∀ cs, readDocument depth ('"' :: cs) =
      (readText cs.length.succ [] cs).map fun text => (.text text.1, text.2) := by
    cases depth <;> exact fun _ => rfl
  rw [chars, List.cons_append, List.append_assoc, List.singleton_append, quoted,
    readText_writeText s rest]
  rfl

theorem readBack_list {depth : Nat} {items : List Document}
    (each : ∀ d ∈ items, ReadBack (readDocument depth) d) :
    ReadBack (readDocument (depth + 1)) (.list items) := by
  cases items with
  | nil =>
    exact ⟨⟨'[', _, rfl, by decide⟩, fun rest _ => rfl⟩
  | cons d items =>
    have first := each d (by simp)
    have chars : (write (.list (d :: items))).toList =
        '[' :: ((write d).toList ++ (writeItems items).toList) := by
      have written : write (.list (d :: items)) = "[" ++ write d ++ writeItems items := rfl
      simp [written]
    refine ⟨⟨'[', _, chars, by decide⟩, fun rest _ => ?_⟩
    obtain ⟨c, cs, split, _, further⟩ := first.starts
    have read := readItems_written rest items first (fun d member => each d (by simp [member]))
    rw [chars, List.cons_append, List.append_assoc, readDocument, first.skip]
    split
    · rename_i closed
      rw [split, List.cons_append] at closed
      exact absurd (List.cons.inj closed).1 further
    · have long : items.length <
          ((write d).toList ++ ((writeItems items).toList ++ rest)).length := by
        have written := items_length items
        simp only [List.length_append]
        omega
      obtain ⟨fuel, enough⟩ := Nat.exists_eq_add_of_lt long
      rw [Nat.succ_eq_add_one, enough, Nat.add_assoc items.length, read]
      simp

theorem readBack_object {depth : Nat} {fields : List (String × Document)}
    (distinct : (fields.map (·.1)).Nodup)
    (each : ∀ f ∈ fields, ReadBack (readDocument depth) f.2) :
    ReadBack (readDocument (depth + 1)) (.object fields) := by
  cases fields with
  | nil =>
    exact ⟨⟨'\x7b', _, rfl, by decide⟩, fun rest _ => rfl⟩
  | cons f fields =>
    have first := each f (by simp)
    have chars : (write (.object (f :: fields))).toList =
        '\x7b' :: (fieldChars f ++ (writeFields fields).toList) := by
      have written : write (.object (f :: fields)) =
          "\x7b" ++ writeText f.1 ++ ":" ++ write f.2 ++ writeFields fields := rfl
      simp [written, fieldChars]
    refine ⟨⟨'\x7b', _, chars, by decide⟩, fun rest _ => ?_⟩
    have read := readFields_written rest f fields first (fun f member => each f (by simp [member]))
    have opened : ∃ cs, fieldChars f ++ ((writeFields fields).toList ++ rest) = '"' :: cs :=
      ⟨_, by rw [fieldChars, writeText_toList]; rfl⟩
    obtain ⟨cs, split⟩ := opened
    have skip : skipBlanks ('"' :: cs) = '"' :: cs := rfl
    rw [chars, List.cons_append, List.append_assoc, readDocument, split, skip, ← split]
    split
    · rename_i closed
      simp [split] at closed
    · have long : fields.length <
          (fieldChars f ++ ((writeFields fields).toList ++ rest)).length := by
        have written := fields_length fields
        simp only [List.length_append]
        omega
      obtain ⟨fuel, enough⟩ := Nat.exists_eq_add_of_lt long
      rw [Nat.succ_eq_add_one, enough, Nat.add_assoc fields.length,
        read _ _ (by simpa using distinct)]
      simp

theorem Plain.readBack {depth : Nat} {d : Document} (plain : Plain depth d) :
    ReadBack (readDocument depth) d := by
  induction plain with
  | null => exact readBack_word _ (.inl rfl)
  | bool b => exact readBack_word _ (.inr ⟨b, rfl⟩)
  | int least most => exact readBack_int least most _
  | text s => exact readBack_text _ s
  | list _ ih => exact readBack_list ih
  | object distinct _ ih => exact readBack_object distinct ih

theorem Plain.read_write {d : Document} (plain : Plain depthLimit d) : read (write d) = some d := by
  have back := plain.readBack
  have start := back.skip []
  have whole := back.reads [] (by simp [Stops])
  rw [List.append_nil] at start whole
  simp only [read, start, whole, bind, Option.bind_some]
  rfl

end Documents
end ClusterLedger.Json
