import ClusterLedger.Config.Text
import ClusterLedger.Proofs.Build
import ClusterLedger.Proofs.Delivery
import ClusterLedger.Proofs.Quotient
/- Replacement demand against what is preempted. Under the calculator that looks at memory alone, the
   release request of a snapshot stands for all the memory that is wanted back, unless the unit that
   it counts in has no memory. The settings are checked against a unit that has neither memory nor
   cores, so such a unit passes. -/
namespace ClusterLedger

theorem SchedulerConfig.ofText_iff {text : String} {config : SchedulerConfig} :
    SchedulerConfig.ofText text = .ok config ↔
      ofToml text = .ok config ∧ config.minimumAllocation.isZero = false := by
  simp only [ofText, bind_ok, check_ok, Bool.not_eq_true, pure, Except.pure, Except.ok.injEq]
  constructor
  · rintro ⟨_, read, passes, rfl⟩
    exact ⟨read, passes⟩
  · rintro ⟨read, passes⟩
    exact ⟨config, read, passes, rfl⟩

def SchedulerConfig.Accepted (config : SchedulerConfig) : Prop :=
  (∃ text, SchedulerConfig.ofText text = .ok config) ∨
    ∃ c : Cluster, c.scheduler = config ∧ c.validate = .ok ()

theorem SchedulerConfig.Accepted.nonzero {config : SchedulerConfig} (accepted : config.Accepted) :
    config.minimumAllocation.isZero = false := by
  rcases accepted with ⟨text, read⟩ | ⟨c, rfl, valid⟩
  · exact (SchedulerConfig.ofText_iff.mp read).2
  · exact (Cluster.validate_iff.mp valid).1

/-- The request asks for as many units as the memory takes, up to the width of the count. -/
structure Request.Covers (r : Request) (unit : Resource) (memory : Nat) : Prop where
  capability : r.capability = unit
  count : r.count = .ofNatClamp ⌈(memory : ℚ) / unit.memoryMb.toNat⌉₊
  asks : 1 ≤ r.count.toNat
  enough : ⌈(memory : ℚ) / unit.memoryMb.toNat⌉₊ < UInt32.size →
    memory ≤ r.count.toNat * unit.memoryMb.toNat

theorem wholeCount_zero : wholeCount 0.0 = 0 := rfl

theorem ceil_bounds (m : Nat) {d : Nat} (unit : 0 < d) :
    m ≤ ⌈(m : ℚ) / d⌉₊ * d ∧ ⌈(m : ℚ) / d⌉₊ * d < m + d := by
  have positive : (0 : ℚ) < d := by exact_mod_cast unit
  have atLeast : (m : ℚ) / d ≤ ⌈(m : ℚ) / d⌉₊ := Nat.le_ceil _
  have below : (⌈(m : ℚ) / d⌉₊ : ℚ) < m / d + 1 := Nat.ceil_lt_add_one (by positivity)
  rw [div_le_iff₀ positive] at atLeast
  constructor
  · exact_mod_cast atLeast
  · have scaled := mul_lt_mul_of_pos_right below positive
    rw [add_mul, div_mul_cancel₀ _ positive.ne', one_mul] at scaled
    exact_mod_cast scaled

namespace World

def MadeUnder (w : World) (config : SchedulerConfig) : Prop := ∀ a s, w.attempts.get? a = some s →
  s.calculator = config.calculator ∧ s.minimumAllocation = config.minimumAllocation

def memoryOf (w : World) (a : AttemptId) (ids : List ContainerId) : Nat :=
  ((ids.filterMap (w.running? a)).map fun r => (w.record r).resource.memoryMb.toNat).sum

variable {w : World} {config : SchedulerConfig}

theorem MadeUnder.follows {w' : World} (made : w.MadeUnder config) (follows : Follows w w') :
    w'.MadeUnder config := by
  intro a s found
  have same := follows.attempts a
  rw [found, Option.map_some] at same
  obtain ⟨old, before, kept⟩ := Option.map_eq_some_iff.mp same.symm
  obtain ⟨calculator, unit⟩ := made a old before
  exact ⟨(congrArg (·.2.1) kept).symm.trans calculator, (congrArg (·.2.2) kept).symm.trans unit⟩

theorem madeUnder_of_values (same : ∀ s ∈ w.attempts.values,
    s.calculator = config.calculator ∧ s.minimumAllocation = config.minimumAllocation) :
    w.MadeUnder config :=
  fun a s found => same s (Table.mem_values.mpr ⟨a, found⟩)

theorem MadeUnder.through (made : w.MadeUnder config) (filed : w.Filed) (events : List Event) :
    (w.through events).MadeUnder config :=
  through_preserves (·.MadeUnder config) (fun _ e filed made => made.follows (passage filed e).follows)
    filed made

theorem replacement_covers {s : Attempt} (byMemory : s.calculator = .memoryOnly)
    (cluster total : Resource) (wanted : 0 < total.memoryMb.toNat)
    (short : total.memoryMb.toNat < 2 ^ 53) :
    (replacement s cluster total).Covers s.minimumAllocation total.memoryMb.toNat ↔
      s.minimumAllocation.memoryMb ≠ 0 := by
  generalize unit_ : s.minimumAllocation = unit
  by_cases zero : unit.memoryMb = 0
  · have nothing : (replacement s cluster total).count = 0 := by
      simp only [replacement, Calculator.divide, byMemory, unit_, Calculator.isInvalidDivisor, zero,
        beq_self_eq_true, ↓reduceIte]
      exact wholeCount_zero
    refine iff_of_false (fun covers => ?_) (fun apart => apart zero)
    have one := covers.asks
    rw [nothing] at one
    simp at one
  · have positive : 0 < unit.memoryMb.toNat :=
      Nat.pos_of_ne_zero fun empty => zero (UInt64.toNat_inj.mp empty)
    obtain ⟨enough, least⟩ := ceil_bounds total.memoryMb.toNat positive
    have count : (replacement s cluster total).count =
        .ofNatClamp ⌈(total.memoryMb.toNat : ℚ) / unit.memoryMb.toNat⌉₊ := by
      have valid : (unit.memoryMb == 0) = false := by simpa using zero
      simp only [replacement, Calculator.divide, byMemory, unit_, Calculator.isInvalidDivisor, valid,
        Bool.false_eq_true, ↓reduceIte]
      exact wholeCount_quotient wanted positive short enough least
    have one : 0 < ⌈(total.memoryMb.toNat : ℚ) / unit.memoryMb.toNat⌉₊ := by
      refine Nat.pos_of_ne_zero fun zero => ?_
      rw [zero, Nat.zero_mul] at enough
      omega
    have size : UInt32.size = 2 ^ 32 := rfl
    refine iff_of_true ⟨unit_, count, ?_, fun fits => ?_⟩ zero
    · rw [count, Resource.clamp32]
      omega
    · rwa [count, Resource.clamp32, Nat.min_eq_right (by omega)]

theorem memory_liveTotal {a : AttemptId} {s : Attempt} (found : w.attempts.get? a = some s)
    (ids : List ContainerId) :
    (w.liveTotal s ids).memoryMb.toNat = min Dimension.memory.capacity (w.memoryOf a ids) := by
  have running : w.running? a = s.live.get? := by
    funext id
    simp [running?, found]
  have total := Resource.amount_sum ((ids.filterMap s.live.get?).map fun r => (w.record r).resource)
    .memory
  rw [List.map_map] at total
  rw [memoryOf, running]
  exact total

/-- Under settings that look at memory alone and were let pass, the release request of any snapshot
    that takes back some memory covers it if and only if the unit is not one of cores alone. -/
theorem release_covers_iff {config : SchedulerConfig} (accepted : config.Accepted)
    (byMemory : config.calculator = .memoryOnly) {start : World} (opening : start.Opening)
    (made : start.MadeUnder config) (past : List Event) {a : AttemptId}
    (known : ((start.through past).attempts.get? a).isSome) (cluster : Resource) :
    let w := start.through past
    let snapshot := (w.snapshot a cluster).1
    let memory := w.memoryOf a snapshot.preempted.ids
    0 < memory → memory < 2 ^ 53 →
      ((∃ r, snapshot.releaseRequests = [r] ∧ r.Covers config.minimumAllocation memory) ↔
        ¬ (config.minimumAllocation.memoryMb = 0 ∧ config.minimumAllocation.vcores ≠ 0)) := by
  intro w snapshot memory wanted short
  obtain ⟨s, found⟩ := Option.isSome_iff_exists.mp known
  obtain ⟨calculator, unit⟩ := made.through opening.filed past a s found
  have carried : snapshot.preempted = s.marks ∧
      snapshot.releaseRequests = [replacement s cluster (w.liveTotal s s.marks.ids)] := by
    simp only [snapshot, World.snapshot, w, found]
    exact ⟨rfl, rfl⟩
  have taken : (w.liveTotal s s.marks.ids).memoryMb.toNat = memory := by
    have wide : 2 ^ 53 ≤ Dimension.memory.capacity := by decide
    rw [memory_liveTotal found, ← carried.1]
    exact Nat.min_eq_right (short.le.trans wide)
  have covers := replacement_covers (calculator.trans byMemory) cluster
    (w.liveTotal s s.marks.ids) (taken ▸ wanted) (taken ▸ short)
  rw [taken, unit] at covers
  have nonzero := accepted.nonzero
  simp only [Resource.isZero, Bool.and_eq_false_iff, beq_eq_false_iff_ne] at nonzero
  rw [carried.2]
  constructor
  · rintro ⟨r, same, covered⟩ ⟨zero, _⟩
    obtain rfl := List.singleton_inj.mp same
    exact covers.mp covered zero
  · intro usable
    refine ⟨_, rfl, covers.mpr fun zero => ?_⟩
    exact usable ⟨zero, nonzero.resolve_left fun apart => apart zero⟩

theorem release_covers_iff_sample :
    let container : Container := ⟨⟨"c1"⟩, ⟨"n1"⟩, ⟨2560, 1⟩, ⟨1⟩, false, none⟩
    let events : List Event := [
      .call (.request ⟨"a"⟩ [⟨⟨1⟩, anyPlace, ⟨2560, 1⟩, 1, true, ""⟩]),
      .call (.allocate ⟨"a"⟩ .offSwitch ⟨"n1"⟩ ⟨1⟩ container),
      .call (.mark ⟨"a"⟩ ⟨"c1"⟩)]
    ∃ r, ((sample.through events).snapshot ⟨"a"⟩ ⟨16384, 16⟩).1.releaseRequests = [r] ∧
      r.Covers ⟨1024, 1⟩ 2560 ∧ r.count = 3 := by
  intro container events
  let c : Cluster := { nodes := [{ id := ⟨"n1"⟩, memoryMb := 8192, vcores := 8 }] }
  have accepted : ({} : SchedulerConfig).Accepted := .inr ⟨c, rfl, by decide⟩
  have made : sample.MadeUnder {} := madeUnder_of_values (by decide)
  have memory : (sample.through events).memoryOf ⟨"a"⟩
      ((sample.through events).snapshot ⟨"a"⟩ ⟨16384, 16⟩).1.preempted.ids = 2560 := by decide
  obtain ⟨r, single, covers⟩ := (release_covers_iff accepted rfl sample_opening made events
    (a := ⟨"a"⟩) (by decide) ⟨16384, 16⟩ (by rw [memory]; decide) (by rw [memory]; decide)).mpr
      (by decide)
  rw [memory] at covers
  have three : ⌈((2560 : Nat) : ℚ) / (1024 : UInt64).toNat⌉₊ = 3 := by
    have unit : (1024 : UInt64).toNat = 1024 := rfl
    rw [unit, Nat.ceil_eq_iff (by decide)]
    norm_num
  exact ⟨r, single, covers, covers.count.trans (congrArg _ three)⟩

/-- A unit of cores alone is let pass, and nothing is asked for in place of what is taken back. -/
theorem cores_replace_nothing :
    let config : SchedulerConfig := ⟨.memoryOnly, 3, ⟨0, 1⟩⟩
    let container : Container := ⟨⟨"c1"⟩, ⟨"n1"⟩, ⟨1024, 1⟩, ⟨1⟩, false, none⟩
    let start : World := ((({} : World).addNode
      { id := ⟨"n1"⟩, rack := "r", partition := "", total := ⟨8192, 8⟩ }).addQueue ⟨"q"⟩).addAttempt
        (Attempt.make ⟨"a"⟩ "u" ⟨"q"⟩ config none 0)
    let w := start.through [
      .call (.request ⟨"a"⟩ [⟨⟨1⟩, anyPlace, ⟨1024, 1⟩, 1, true, ""⟩]),
      .call (.allocate ⟨"a"⟩ .offSwitch ⟨"n1"⟩ ⟨1⟩ container),
      .call (.mark ⟨"a"⟩ ⟨"c1"⟩)]
    let snapshot := (w.snapshot ⟨"a"⟩ ⟨8192, 8⟩).1
    config.Accepted ∧ start.Opening ∧ start.MadeUnder config ∧
      w.memoryOf ⟨"a"⟩ snapshot.preempted.ids = 1024 ∧
      snapshot.releaseRequests.map (·.count) = [0] ∧
      ¬ ∃ r, snapshot.releaseRequests = [r] ∧ r.Covers config.minimumAllocation 1024 := by
  intro config container start w snapshot
  let c : Cluster :=
    { scheduler := config, nodes := [{ id := ⟨"n1"⟩, memoryMb := 8192, vcores := 8 }] }
  have asked : snapshot.releaseRequests.map (·.count) = [0] := by decide
  refine ⟨.inr ⟨c, rfl, by decide⟩, ?_, madeUnder_of_values (by decide), by decide, asked, ?_⟩
  · exact ((opening_empty.addNode rfl).addQueue _).addAttempt
      (Attempt.make_untouched _ _ _ _ _ _) (by decide)
  · rintro ⟨r, single, covers⟩
    rw [single] at asked
    have one := covers.asks
    have zero : r.count = 0 := List.singleton_inj.mp asked
    rw [zero] at one
    exact absurd one (by decide)

end World
end ClusterLedger
