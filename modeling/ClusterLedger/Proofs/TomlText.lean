import ClusterLedger.Proofs.TomlValues
/- TOML texts read back, as far as the writer goes: values, and tables of values under headers. -/
namespace ClusterLedger.Toml
open Scan

abbrev Values := List (String × Document)

section Drafts
variable {key : String} {fields : Fields}

theorem lookup?_eq_none : lookup? key fields = none ↔ key ∉ fields.map (·.1) := by
  induction fields with
  | nil => simp [lookup?]
  | cons f fields ih =>
    obtain ⟨name, e⟩ := f
    by_cases same : name = key
    · simp [lookup?, same]
    · simp [lookup?, same, Ne.symm same, ih]

theorem setEntry_new (new : key ∉ fields.map (·.1)) (e : Entry) :
    setEntry key e fields = fields ++ [(key, e)] := by
  induction fields with
  | nil => rfl
  | cons f fields ih =>
    obtain ⟨name, old⟩ := f
    simp only [List.map_cons, List.mem_cons, not_or] at new
    simp [setEntry, Ne.symm new.1, ih new.2]

def under (root : Fields) (key : String) (fields : Fields) : Draft :=
  { root, open_ := fields, path := [key] }

theorem put_new {draft : Draft} (new : key ∉ draft.open_.map (·.1)) (d : Document) :
    draft.put [] key d = some { draft with open_ := draft.open_ ++ [(key, .value d)] } := by
  simp [Draft.put, putValue, within, lookup?_eq_none.mpr new, setEntry_new new]

theorem close_under {root : Fields} (new : key ∉ root.map (·.1)) :
    (under root key fields).close = some (root ++ [(key, .table .header fields)]) := by
  simp [under, Draft.close, within, lookup?_eq_none.mpr new, setEntry_new new]

theorem openTable_new {draft : Draft} {root : Fields} (closes : draft.close = some root)
    (new : key ∉ root.map (·.1)) : draft.openTable [key] = some (under root key []) := by
  simp [Draft.openTable, closes, within, lookup?_eq_none.mpr new, under]

end Drafts

section Lines
variable (rest : List Char)

theorem endLine_newline : endLine ('\n' :: rest) = some rest := rfl

def valueLine (key text : String) : String := writeKey key ++ " = " ++ text ++ "\n"

theorem valueLine_toList (key text : String) : (valueLine key text).toList ++ rest =
    (writeKey key).toList ++ ' ' :: '=' :: ' ' :: (text.toList ++ '\n' :: rest) := by
  simp [valueLine]

theorem writeValue_starts {d : Document} {text : String} (written : writeValue d = some text) :
    ∃ c cs, text.toList = c :: cs ∧ isSpace c = false := by
  cases d with
  | bool b =>
    obtain rfl := Option.some.inj written
    cases b
    · exact ⟨'f', _, rfl, rfl⟩
    · exact ⟨'t', _, rfl, rfl⟩
  | int n =>
    obtain ⟨d, fits, rfl⟩ := Option.map_eq_some_iff.mp written
    obtain ⟨c, cs, split, apart⟩ := int_starts n
    have visible : c ∉ [' ', '\t'] := apart (by decide)
    exact ⟨c, cs, split, by simpa [isSpace] using visible⟩
  | text s =>
    obtain rfl := Option.some.inj written
    exact ⟨'"', _, writeText_toList s, rfl⟩
  | _ => contradiction

theorem readPair_line (key : String) {d : Document} {text : String}
    (written : writeValue d = some text) : readPair (readValue depthLimit)
      ((valueLine key text).toList ++ rest) = some ((([], key), d), '\n' :: rest) := by
  obtain ⟨c, cs, split, visible⟩ := writeValue_starts written
  have stops : Stops isSpace (text.toList ++ '\n' :: rest) := by simpa [Stops, split] using visible
  have blank : skipSpaces (' ' :: (text.toList ++ '\n' :: rest)) = text.toList ++ '\n' :: rest :=
    dropWhile_stops stops
  have front : readKey ((valueLine key text).toList ++ rest) =
      some (([], key), '=' :: ' ' :: (text.toList ++ '\n' :: rest)) := by
    rw [valueLine_toList]
    exact readKey_written key (by simp [Stops]; decide) rfl (by simp [Stops])
  simp only [readPair, front, bind, Option.bind_some, dropText, ↓reduceIte, blank,
    readValue_written written]
  rfl

theorem readLine_value {draft : Draft} {key text : String} {d : Document}
    (written : writeValue d = some text) (new : key ∉ draft.open_.map (·.1)) :
    readLine draft ((valueLine key text).toList ++ rest) =
      some ({ draft with open_ := draft.open_ ++ [(key, .value d)] }, rest) := by
  have pair := readPair_line rest key written
  obtain ⟨c, cs, split, apart⟩ := writeKey_starts key
  have unbracketed : c ∉ ['['] := apart (by decide)
  rw [valueLine_toList, split, List.cons_append] at pair ⊢
  rw [readLine.eq_def]
  split
  · rename_i opened
    exact absurd (List.mem_singleton.mpr (List.cons.inj opened).1) unbracketed
  · rename_i opened
    exact absurd (List.mem_singleton.mpr (List.cons.inj opened).1) unbracketed
  · simp [pair, put_new new, endLine_newline]

theorem readLine_header {draft : Draft} {root : Fields} {key : String}
    (closes : draft.close = some root) (new : key ∉ root.map (·.1)) :
    readLine draft ('[' :: ((writeKey key).toList ++ ']' :: '\n' :: rest)) =
      some (under root key [], rest) := by
  have front : readKey ((writeKey key).toList ++ ']' :: '\n' :: rest) =
      some (([], key), ']' :: '\n' :: rest) :=
    readKey_written key (by simp [Stops]; decide) rfl (by simp [Stops])
  obtain ⟨c, cs, split, apart⟩ := writeKey_starts key
  have unbracketed : c ∉ ['['] := apart (by decide)
  rw [readLine.eq_def]
  split
  · rename_i opened
    rw [split] at opened
    simp only [List.cons_append, List.cons.injEq, true_and] at opened
    exact absurd (List.mem_singleton.mpr opened.1) unbracketed
  · rename_i opened
    obtain rfl := (List.cons.inj opened).2
    simp [front, dropText, openTable_new closes new, endLine_newline]
  · rename_i opened
    exact absurd rfl (opened _)

end Lines

section Sheets

/-- The lines lead from one draft to another. Every line has a character at least, so that fuel for
    each character is enough. -/
def Leads (draft : Draft) (cs : List Char) (final : Draft) : Prop :=
  ∀ fuel, cs.length < fuel → readLines fuel draft cs = some final

theorem Leads.done (draft : Draft) : Leads draft [] draft := fun fuel enough => by
  obtain ⟨fuel, rfl⟩ := Nat.exists_eq_add_of_lt enough
  simp [readLines, skipAll, skipLines]

theorem skipAll_stops {c : Char} (cs : List Char) (mark : c ∉ [' ', '\t', '\n', '\r', '#']) :
    skipAll (c :: cs) = c :: cs := by
  simp only [List.mem_cons, List.not_mem_nil, or_false, not_or] at mark
  rw [skipAll, List.length_cons, skipLines.eq_def]
  dsimp only
  split <;> simp_all

theorem Leads.step {draft middle final : Draft} {cs rest : List Char}
    (line : readLine draft (skipAll cs) = some (middle, rest)) (nonempty : skipAll cs ≠ [])
    (shorter : rest.length < cs.length) (further : Leads middle rest final) :
    Leads draft cs final := fun fuel enough => by
  obtain ⟨fuel, rfl⟩ : ∃ k, fuel = k + 1 := ⟨fuel - 1, by omega⟩
  rw [readLines]
  split
  · contradiction
  · simp [line, further fuel (by omega)]

def Writable (fields : Values) : Prop := ∀ f ∈ fields, ∃ text, writeValue f.2 = some text

def valueEntries (fields : Values) : Fields := fields.map fun f => (f.1, .value f.2)

@[simp] theorem valueEntries_names (fields : Values) :
    (valueEntries fields).map (·.1) = fields.map (·.1) := by
  rw [valueEntries, List.map_map]
  rfl

theorem writeValues_cons {key text : String} {d : Document} (written : writeValue d = some text)
    (fields : Values) :
    writeValues ((key, d) :: fields) = (writeValues fields).map (valueLine key text ++ ·) := by
  have plain : ∀ inner, d ≠ .object inner := by
    rintro inner rfl
    contradiction
  rw [writeValues, written]
  · cases writeValues fields <;> rfl
  · exact plain

theorem valueLine_front (key text : String) (rest : List Char) :
    skipAll ((valueLine key text).toList ++ rest) = (valueLine key text).toList ++ rest ∧
      rest.length < ((valueLine key text).toList ++ rest).length := by
  obtain ⟨c, cs, split, apart⟩ := writeKey_starts key
  constructor
  · rw [valueLine_toList, split, List.cons_append]
    exact skipAll_stops _ (apart (by decide))
  · simp only [valueLine_toList, List.length_append, List.length_cons]
    omega

theorem values_lead {fields : Values} (writable : Writable fields) :
    ∃ text, writeValues fields = some text ∧ ∀ {draft final rest},
      ((draft.open_.map (·.1)) ++ fields.map (·.1)).Nodup →
        Leads { draft with open_ := draft.open_ ++ valueEntries fields } rest final →
          Leads draft (text.toList ++ rest) final := by
  -- The draft changes from line to line, so that what is claimed of the rest is claimed for all.
  induction fields with
  | nil => exact ⟨"", rfl, fun _ further => by simpa [valueEntries] using further⟩
  | cons f fields ih =>
    obtain ⟨key, d⟩ := f
    obtain ⟨value, written⟩ := writable (key, d) List.mem_cons_self
    obtain ⟨text, lines, later⟩ := ih fun f member => writable f (List.mem_cons_of_mem _ member)
    refine ⟨valueLine key value ++ text, by rw [writeValues_cons written, lines]; rfl, ?_⟩
    intro draft final rest distinct further
    have new : key ∉ draft.open_.map (·.1) := fun again =>
      (List.nodup_append.mp distinct).2.2 key again key (by simp) rfl
    rw [String.toList_append, List.append_assoc]
    obtain ⟨visible, shorter⟩ := valueLine_front key value (text.toList ++ rest)
    refine .step (visible.symm ▸ readLine_value _ written new) ?_ shorter (later ?_ ?_)
    · rw [visible]
      exact List.ne_nil_of_length_pos (by omega)
    · simpa using distinct
    · simpa [valueEntries] using further

def tableEntries (tables : List (String × Values)) : Fields :=
  tables.map fun t => (t.1, .table .header (valueEntries t.2))

def tableFields (tables : List (String × Values)) : Values :=
  tables.map fun t => (t.1, .object t.2)

structure Tabular (tables : List (String × Values)) : Prop where
  writable : ∀ t ∈ tables, Writable t.2
  distinct : ∀ t ∈ tables, (t.2.map (·.1)).Nodup

def headerLine (key : String) : String := "\n[" ++ writeKey key ++ "]\n"

theorem header_leads {draft final : Draft} {root : Fields} {key : String} {rest : List Char}
    (closes : draft.close = some root) (new : key ∉ root.map (·.1))
    (further : Leads (under root key []) rest final) :
    Leads draft ((headerLine key).toList ++ rest) final := by
  have chars : (headerLine key).toList ++ rest =
      '\n' :: '[' :: ((writeKey key).toList ++ ']' :: '\n' :: rest) := by
    simp [headerLine]
  have visible : skipAll ('\n' :: '[' :: ((writeKey key).toList ++ ']' :: '\n' :: rest)) =
      '[' :: ((writeKey key).toList ++ ']' :: '\n' :: rest) :=
    skipAll_stops (c := '[') _ (by decide)
  rw [chars]
  refine .step (visible.symm ▸ readLine_header rest closes new) ?_ ?_ further
  · rw [visible]
    exact List.cons_ne_nil _ _
  · simp only [List.length_append, List.length_cons]
    omega

theorem writeTables_cons {fields : Values} {values : String} (key : String)
    (written : writeValues fields = some values) (rest : Values) :
    writeTables ((key, .object fields) :: rest) =
      (writeTables rest).map (headerLine key ++ values ++ ·) := by
  rw [writeTables, written]
  cases writeTables rest <;> rfl

theorem tables_lead {tables : List (String × Values)} (tabular : Tabular tables) :
    ∃ text, writeTables (tableFields tables) = some text ∧ ∀ {draft : Draft} {root : Fields},
      draft.close = some root → (root.map (·.1) ++ tables.map (·.1)).Nodup →
        ∃ final, final.close = some (root ++ tableEntries tables) ∧
          Leads draft text.toList final := by
  induction tables with
  | nil =>
    refine ⟨"", rfl, fun {draft root} closes _ => ⟨draft, ?_, .done draft⟩⟩
    simpa [tableEntries] using closes
  | cons t tables ih =>
    obtain ⟨key, fields⟩ := t
    have further : Tabular tables :=
      ⟨fun t member => tabular.writable t (List.mem_cons_of_mem _ member),
        fun t member => tabular.distinct t (List.mem_cons_of_mem _ member)⟩
    obtain ⟨text, lines, later⟩ := ih further
    obtain ⟨values, written, lead⟩ := values_lead (tabular.writable _ List.mem_cons_self)
    refine ⟨headerLine key ++ values ++ text, ?_, fun {draft root} closes distinct => ?_⟩
    · exact (writeTables_cons key written (tableFields tables)).trans (lines ▸ rfl)
    have new : key ∉ root.map (·.1) := fun again =>
      (List.nodup_append.mp distinct).2.2 key again key (by simp) rfl
    -- The table is filled by the lines of its values, and what follows closes it.
    have closing : (under root key (valueEntries fields)).close =
      some (root ++ [(key, .table .header (valueEntries fields))]) := close_under new
    obtain ⟨final, closed, further⟩ := later closing (by simpa using distinct)
    have filled : Leads (under root key []) (values.toList ++ text.toList) final :=
      lead (by simpa [under] using tabular.distinct _ List.mem_cons_self) further
    refine ⟨final, by simpa [tableEntries] using closed, ?_⟩
    rw [String.toList_append, String.toList_append, List.append_assoc]
    exact header_leads closes new filled

theorem valueEntries_documents (fields : Values) :
    fieldsToDocuments (valueEntries fields) = fields := by
  induction fields with
  | nil => rfl
  | cons f fields ih =>
    rw [valueEntries, List.map_cons, fieldsToDocuments, ← valueEntries, ih, Entry.toDocument]

theorem tableEntries_documents (tables : List (String × Values)) :
    fieldsToDocuments (tableEntries tables) = tableFields tables := by
  induction tables with
  | nil => rfl
  | cons t tables ih =>
    rw [tableEntries, List.map_cons, fieldsToDocuments, ← tableEntries, ih, Entry.toDocument,
      valueEntries_documents]
    rfl

theorem documents_append (fields more : Fields) :
    fieldsToDocuments (fields ++ more) = fieldsToDocuments fields ++ fieldsToDocuments more := by
  induction fields with
  | nil => rfl
  | cons f fields ih => rw [List.cons_append, fieldsToDocuments, ih, fieldsToDocuments]; rfl

theorem written_apart {values : Values} (writable : Writable values)
    (tables : List (String × Values)) :
    writeValues (values ++ tableFields tables) = writeValues values ∧
      writeTables (values ++ tableFields tables) = writeTables (tableFields tables) := by
  induction values with
  | nil =>
    refine ⟨?_, rfl⟩
    induction tables with
    | nil => rfl
    | cons t tables ih => rwa [List.nil_append, tableFields, List.map_cons, writeValues]
  | cons f values ih =>
    obtain ⟨key, d⟩ := f
    obtain ⟨text, written⟩ := writable (key, d) List.mem_cons_self
    obtain ⟨lines, headers⟩ := ih fun f member => writable f (List.mem_cons_of_mem _ member)
    constructor
    · rw [List.cons_append, writeValues_cons written, writeValues_cons written, lines]
    · rw [List.cons_append, writeTables, headers]
      intro name inner same
      rw [(Prod.mk.inj same).2] at written
      contradiction

theorem skipByteOrderMark_stops {cs : List Char} (stops : Stops (· == '\ufeff') cs) :
    skipByteOrderMark cs = cs := by
  rw [skipByteOrderMark.eq_def]
  split
  · exact absurd (stops _ rfl) (by decide)
  · rfl

theorem values_unmarked {fields : Values} {text : String} (writable : Writable fields)
    (written : writeValues fields = some text) (rest : List Char)
    (stops : Stops (· == '\ufeff') rest) :
    Stops (· == '\ufeff') (text.toList ++ rest) := by
  cases fields with
  | nil =>
    obtain rfl := Option.some.inj written
    exact stops
  | cons f fields =>
    obtain ⟨key, d⟩ := f
    obtain ⟨value, line⟩ := writable (key, d) List.mem_cons_self
    rw [writeValues_cons line] at written
    obtain ⟨more, -, rfl⟩ := Option.map_eq_some_iff.mp written
    obtain ⟨c, cs, split, apart⟩ := writeKey_starts key
    have unmarked : c ∉ ['\ufeff'] := apart (by decide)
    rw [String.toList_append, List.append_assoc, valueLine_toList, split]
    simpa [Stops] using unmarked

theorem tables_unmarked {tables : List (String × Values)} {text : String}
    (tabular : Tabular tables) (written : writeTables (tableFields tables) = some text) :
    Stops (· == '\ufeff') text.toList := by
  cases tables with
  | nil =>
    obtain rfl := Option.some.inj written
    simp [Stops]
  | cons t tables =>
    obtain ⟨values, lines, -⟩ := values_lead (tabular.writable t List.mem_cons_self)
    have headed := writeTables_cons t.1 lines (tableFields tables)
    obtain ⟨more, -, rfl⟩ := Option.map_eq_some_iff.mp (headed.symm.trans written)
    simp [Stops, headerLine]

/-- Values, and behind them tables of values, are written and read back, each under its own name. -/
theorem read_write {values : Values}
    {tables : List (String × Values)} (writable : Writable values)
    (tabular : Tabular tables) (distinct : (values.map (·.1) ++ tables.map (·.1)).Nodup) :
    ∃ text, write (.object (values ++ tableFields tables)) = some text ∧
      read text = some (.object (values ++ tableFields tables)) := by
  obtain ⟨front, lines, first⟩ := values_lead writable
  obtain ⟨back, headers, later⟩ := tables_lead tabular
  obtain ⟨only_values, only_tables⟩ := written_apart writable tables
  have opened : Draft.close { open_ := valueEntries values } = some (valueEntries values) := rfl
  obtain ⟨final, closed, further⟩ := later opened (by simpa using distinct)
  have whole : Leads {} (front ++ back).toList final := by
    rw [String.toList_append]
    exact first (by simpa using (List.nodup_append.mp distinct).1) (by simpa using further)
  refine ⟨front ++ back, ?_, ?_⟩
  · simp [write, only_values, only_tables, lines, headers]
  · have unmarked : Stops (· == '\ufeff') (front ++ back).toList := by
      rw [String.toList_append]
      exact values_unmarked writable lines _ (tables_unmarked tabular headers)
    have lines_read := whole _ (Nat.lt_succ_self _)
    simp only [read, skipByteOrderMark_stops unmarked, lines_read, closed, bind, Option.bind_some,
      documents_append, valueEntries_documents, tableEntries_documents]
    rfl

section Refusals
variable {key : String}

theorem writeValues_none {fields : Values} {d : Document} (member : (key, d) ∈ fields)
    (refused : writeValue d = none) (plain : ∀ inner, d ≠ .object inner) :
    writeValues fields = none := by
  induction fields with
  | nil => contradiction
  | cons f fields ih =>
    obtain ⟨name, other⟩ := f
    rcases List.mem_cons.mp member with same | later
    · obtain ⟨rfl, rfl⟩ := Prod.mk.inj same
      rw [writeValues, refused]
      · rfl
      · exact plain
    · have rest := ih later
      rw [writeValues.eq_def]
      split
      · contradiction
      · rename_i split
        rw [← (List.cons.inj split).2]
        exact rest
      · rename_i split
        rw [← (List.cons.inj split).2, rest]
        cases writeValue _ <;> rfl

theorem writeTables_none {tables fields : Values}
    (member : (key, .object fields) ∈ tables) (refused : writeValues fields = none) :
    writeTables tables = none := by
  induction tables with
  | nil => contradiction
  | cons t tables ih =>
    obtain ⟨name, other⟩ := t
    rcases List.mem_cons.mp member with same | later
    · obtain ⟨rfl, rfl⟩ := Prod.mk.inj same
      rw [writeTables, refused]
      rfl
    · have rest := ih later
      rw [writeTables.eq_def]
      split
      · contradiction
      · rename_i split
        rw [← (List.cons.inj split).2, rest]
        cases writeValues _ <;> rfl
      · rename_i split
        rw [← (List.cons.inj split).2]
        exact rest

theorem write_none {fields : Values}
    (refused : writeValues fields = none ∨ writeTables fields = none) :
    write (.object fields) = none := by
  rw [write]
  rcases refused with values | tables
  · rw [values]
    rfl
  · rw [tables]
    cases writeValues fields <;> rfl

end Refusals

end Sheets

end ClusterLedger.Toml
