import ClusterLedger.Config.Text
import ClusterLedger.Proofs.Exchange
import ClusterLedger.Proofs.TomlText
/- Settings of the scheduler as a text: what is written of them reads as themselves, up to the
   largest number that the text format has. -/
namespace ClusterLedger.SchedulerConfig
open Toml

theorem toText_eq (c : SchedulerConfig) :
    c.toText = (Toml.write (encode c)).elim (.error .unwritable) .ok := by
  have same : toText = fun c => (Toml.write (encode c)).elim (.error .unwritable) .ok := by
    delta toText
    funext c
    -- The text depends on numbers that are not known, so that nothing may be computed of it.
    generalize Toml.write (encode c) = written
    cases written <;> rfl
  exact congrFun same c

theorem ofText_eq {text : String} {c : SchedulerConfig} (read : Toml.read text = some (encode c)) :
    ofText text = if c.minimumAllocation.isZero then .error .zeroMinimum else .ok c := by
  have parsed : (ofToml text : Except ConfigError SchedulerConfig) = .ok c := by
    rw [ofToml, read, Option.bind_some, decode_encode]
  simp only [ofText, parsed, bind, Except.bind]
  cases c.minimumAllocation.isZero <;> rfl

variable (c : SchedulerConfig)

def integers : List Nat :=
  [c.refreshSeconds.toNat, c.minimumAllocation.memoryMb.toNat, c.minimumAllocation.vcores.toNat]

def mostWritable : Nat := 9223372036854775807

def valueFields : List (String × Document) :=
  [("resource_calculator", encode c.calculator),
    ("aggregate_usage_refresh_secs", encode c.refreshSeconds)]

def minimumFields : List (String × Document) :=
  [("memory_mb", encode c.minimumAllocation.memoryMb),
    ("vcores", encode c.minimumAllocation.vcores)]

theorem encode_eq :
    encode c =
      .object (c.valueFields ++ tableFields [("minimum_allocation", c.minimumFields)]) := rfl

theorem writeValue_nat (n : Nat) :
    writeValue (.int n) = if n ≤ mostWritable then some (toString (n : Int)) else none := by
  have bounds : (-9223372036854775808 ≤ (n : Int) ∧ (n : Int) < 9223372036854775808) ↔
      n ≤ mostWritable := by
    rw [mostWritable]
    omega
  simp only [writeValue, integer?, bounds]
  split <;> rfl

theorem written_and_read (fits : ∀ n ∈ c.integers, n ≤ mostWritable) :
    ∃ text, Toml.write (encode c) = some text ∧ Toml.read text = some (encode c) := by
  have written : ∀ n ∈ c.integers, ∃ text, writeValue (.int n) = some text := fun n member =>
    ⟨_, (writeValue_nat n).trans (if_pos (fits n member))⟩
  simp only [integers, List.forall_mem_cons] at written
  obtain ⟨refresh, memory, cores, -⟩ := written
  have values : Writable c.valueFields :=
    List.forall_mem_cons.mpr ⟨⟨_, rfl⟩, List.forall_mem_singleton.mpr refresh⟩
  have minimum : Writable c.minimumFields :=
    List.forall_mem_cons.mpr ⟨memory, List.forall_mem_singleton.mpr cores⟩
  have tabular : Tabular [("minimum_allocation", c.minimumFields)] :=
    ⟨List.forall_mem_singleton.mpr minimum,
      List.forall_mem_singleton.mpr (by simp [minimumFields])⟩
  rw [encode_eq]
  exact read_write values tabular (by simp [valueFields])

theorem not_written {n : Nat} (member : n ∈ c.integers) (large : mostWritable < n) :
    Toml.write (encode c) = none := by
  have refused : writeValue (.int n) = none :=
    (writeValue_nat n).trans (if_neg (Nat.not_le_of_lt large))
  have in_values : ∀ {key}, (key, .int n) ∈ c.valueFields → Toml.write (encode c) = none :=
    fun line => write_none (.inl (writeValues_none (List.mem_append_left _ line) refused nofun))
  have in_minimum : ∀ {key}, (key, .int n) ∈ c.minimumFields → Toml.write (encode c) = none :=
    fun line => write_none (.inr (writeTables_none (List.mem_append_right c.valueFields
      List.mem_cons_self) (writeValues_none line refused nofun)))
  simp only [integers, List.mem_cons, List.not_mem_nil, or_false] at member
  rcases member with rfl | rfl | rfl
  · exact in_values (List.mem_cons_of_mem _ List.mem_cons_self)
  · exact in_minimum List.mem_cons_self
  · exact in_minimum (List.mem_cons_of_mem _ List.mem_cons_self)

/-- Settings are written exactly if their numbers fit, and they are read back unless their minimum
    is zero in both dimensions. -/
theorem text_rereads :
    if ∀ n ∈ c.integers, n ≤ mostWritable then
      ∃ text, c.toText = .ok text ∧ ofText text =
        if c.minimumAllocation.memoryMb = 0 ∧ c.minimumAllocation.vcores = 0 then
          .error .zeroMinimum
        else .ok c
    else c.toText = .error .unwritable := by
  split
  · rename_i fits
    obtain ⟨text, written, read⟩ := c.written_and_read fits
    refine ⟨text, by rw [toText_eq, written, Option.elim_some], ?_⟩
    rw [ofText_eq read]
    simp [Resource.isZero]
  · rename_i large
    obtain ⟨n, member, large⟩ : ∃ n ∈ c.integers, mostWritable < n := by simpa using large
    rw [toText_eq, c.not_written member large, Option.elim_none]

example : ({} : SchedulerConfig).toText = .ok (
    "resource_calculator = \"default\"\naggregate_usage_refresh_secs = 3\n\n" ++
    "[minimum_allocation]\nmemory_mb = 1024\nvcores = 1\n") := by
  decide

end ClusterLedger.SchedulerConfig
