import ClusterLedger.Accrual
import ClusterLedger.Proofs.Quotient
/- A span of nanoseconds as a binary64 number of seconds. Whole seconds below 2 ^ 53 are exact, the
   rest is a quotient, and their sum errs by less than a unit of its last place. -/
namespace ClusterLedger
open Float.Model Float.Model.UnpackedFloat

section Operations
variable {x y : Float} {k k₁ k₂ : Nat} {e e₁ e₂ : Int}

theorem round_exact {s : Nat} (low : 2 ^ 52 ≤ k) (high : k < 2 ^ 53) (least : -1074 ≤ e) :
    ∃ positive, roundWithAccuracy Format.binary64 .positive (k * 2 ^ s) e .exact =
      .finite .positive k (e + s) positive := by
  have width : (k * 2 ^ s).log2 = 52 + s := by
    rw [log2_mul_two_pow (by omega), (Nat.log2_eq_iff (by omega)).mpr ⟨low, high⟩]
  obtain ⟨k', i, positive, rounded, lower, _, once, above, below⟩ := round_whole width least
  have unit := Nat.two_pow_pos s
  have same : k' * 2 ^ i = k := by
    rcases Nat.lt_trichotomy (k' * 2 ^ i) k with less | same | more
    · have step := Nat.mul_le_mul_right (2 ^ s) less
      rw [Nat.succ_mul] at step
      omega
    · exact same
    · have step := Nat.mul_le_mul_right (2 ^ s) more
      rw [Nat.succ_mul] at step
      omega
  obtain rfl | rfl : i = 0 ∨ i = 1 := by omega
  · obtain rfl : k' = k := by omega
    exact ⟨positive, by simpa using rounded⟩
  · omega

theorem mul_one_reads (reads : Reads x k e) (one : Reads y (2 ^ 52) (-52)) (least : -1000 ≤ e)
    (most : e ≤ 971) : Reads (x * y) k e := by
  obtain ⟨positive₁, unpack₁⟩ := reads.unpacks
  obtain ⟨positive₂, unpack₂⟩ := one.unpacks
  obtain ⟨positive, rounded⟩ :=
    round_exact (s := 52) reads.low reads.high (by omega : -1074 ≤ e + -52)
  have product : x * y = ⟨Float.Model.pack (.finite .positive k e positive)⟩ := by
    have multiplied : UnpackedFloat.mul Format.binary64 x.toModel.unpack y.toModel.unpack =
        .finite .positive k e positive := by
      rw [unpack₁, unpack₂, UnpackedFloat.mul]
      refine Eq.trans rounded ?_
      congr 1
      omega
    change (⟨Float.Model.pack (UnpackedFloat.mul Format.binary64 x.toModel.unpack
      y.toModel.unpack)⟩ : Float) = _
    rw [multiplied]
  exact product ▸ reads_pack reads.low reads.high (by omega) most

theorem shifted_lt {k a b : Nat} (high : k < 2 ^ 53) (within : a ≤ b) : k * 2 ^ a < 2 ^ (b + 53) :=
  calc k * 2 ^ a < 2 ^ 53 * 2 ^ a := Nat.mul_lt_mul_of_pos_right high (Nat.two_pow_pos a)
    _ = 2 ^ (a + 53) := by ring
    _ ≤ 2 ^ (b + 53) := Nat.pow_le_pow_right (by decide) (by omega)

theorem add_reads {a b : Nat} (first : Reads x k₁ (e + a)) (second : Reads y k₂ (e + b))
    (smaller : a = 0 ∨ b = 0) (least : -1074 ≤ e) (most : e + a + b ≤ 900) :
    ∃ k s i : Nat, Reads (x + y) k (e + s + i) ∧ i ≤ 1 ∧
      2 * (k * 2 ^ i * 2 ^ s) ≤ 2 * (k₁ * 2 ^ a + k₂ * 2 ^ b) + 2 ^ s ∧
      2 * (k₁ * 2 ^ a + k₂ * 2 ^ b) ≤ 2 * (k * 2 ^ i * 2 ^ s) + 2 ^ s := by
  obtain ⟨positive₁, unpack₁⟩ := first.unpacks
  obtain ⟨positive₂, unpack₂⟩ := second.unpacks
  generalize total : k₁ * 2 ^ a + k₂ * 2 ^ b = m
  have large : 2 ^ 52 ≤ m := by
    have grown : k₁ ≤ k₁ * 2 ^ a := Nat.le_mul_of_pos_right k₁ (Nat.two_pow_pos a)
    have low := first.low
    omega
  obtain ⟨s, width⟩ : ∃ s, m.log2 = 52 + s := by
    have least := (Nat.le_log2 (by omega)).mpr large
    exact ⟨m.log2 - 52, by omega⟩
  have few : s ≤ a + b + 2 := by
    have bound : m < 2 ^ (a + b + 54) := by
      have left := shifted_lt first.high (Nat.le_add_right a b)
      have right := shifted_lt second.high (Nat.le_add_left b a)
      have twice : 2 ^ (a + b + 54) = 2 * 2 ^ (a + b + 53) := Nat.pow_succ'
      omega
    have small := (Nat.log2_lt (by omega)).mpr bound
    omega
  obtain ⟨k, i, positive, rounded, lower, upper, once, near⟩ := round_whole width least
  have sum : x + y = ⟨Float.Model.pack (.finite .positive k (e + s + i) positive)⟩ := by
    have target : min (e + a) (e + b) = e := by omega
    have shifts : (e + a - e).toNat = a ∧ (e + b - e).toNat = b := by omega
    have narrower : (e - Format.binary64.targetExponent (totalExponent m e)).toNat = 0 := by
      simp only [Format.targetExponent, totalExponent, width, Format.mantissaBits,
        Format.minExponent]
      omega
    have above : compare ((m : Nat) : Int) 0 = .gt := by
      rw [Int.compare_eq_gt]
      omega
    have added : UnpackedFloat.add Format.binary64 x.toModel.unpack y.toModel.unpack =
        .finite .positive k (e + s + i) positive := by
      rw [unpack₁, unpack₂, ← rounded]
      simp only [UnpackedFloat.add, target, decreaseExponent, shifts, Sign.apply, Nat.shiftLeft_eq,
        ← Nat.cast_add, total, UnpackedFloat.normalize, above, UnpackedFloat.round, narrower,
        Int.toNat_natCast, Nat.pow_zero, Nat.mul_one, Nat.cast_zero, Int.sub_zero]
    change (⟨Float.Model.pack (UnpackedFloat.add Format.binary64 x.toModel.unpack
      y.toModel.unpack)⟩ : Float) = _
    rw [added]
  exact ⟨k, s, i, sum ▸ reads_pack lower upper (by omega) (by omega), once, near⟩

/-- The float is this number up to half a unit of its last place. -/
def Nearest (x : Float) (v : ℚ) : Prop :=
  ∃ k e, Reads x k e ∧ |(k : ℚ) * 2 ^ e - v| ≤ 2 ^ e / 2

theorem scaled_near {k s i : Nat} {v : ℚ} (u : Int) (above : (k * 2 ^ i * 2 ^ s : ℚ) ≤ v + 2 ^ s / 2)
    (below : v ≤ k * 2 ^ i * 2 ^ s + 2 ^ s / 2) :
    |(k : ℚ) * 2 ^ (u + s + i) - v * 2 ^ u| ≤ 2 ^ (u + s + i) / 2 := by
  have unit : (0 : ℚ) < 2 ^ u := by positivity
  have split : (2 : ℚ) ^ (u + s + i) = 2 ^ u * 2 ^ s * 2 ^ i := by
    rw [zpow_add₀ two_ne_zero, zpow_add₀ two_ne_zero, zpow_natCast, zpow_natCast]
  have carried : (2 : ℚ) ^ s ≤ 2 ^ s * 2 ^ i :=
    le_mul_of_one_le_right (by positivity) (one_le_pow₀ one_le_two)
  have apart : |(k * 2 ^ i * 2 ^ s - v : ℚ)| ≤ 2 ^ s * 2 ^ i / 2 := by
    rw [abs_le]
    constructor <;> linarith
  calc |(k : ℚ) * 2 ^ (u + s + i) - v * 2 ^ u| = |(k * 2 ^ i * 2 ^ s - v) * 2 ^ u| := by
        rw [split]
        ring_nf
    _ = |(k * 2 ^ i * 2 ^ s - v : ℚ)| * 2 ^ u := by rw [abs_mul, abs_of_pos unit]
    _ ≤ 2 ^ s * 2 ^ i / 2 * 2 ^ u := mul_le_mul_of_nonneg_right apart unit.le
    _ = 2 ^ (u + s + i) / 2 := by
        rw [split]
        ring

theorem div_nearest (first : Reads x k₁ e₁) (second : Reads y k₂ e₂) (above : -900 ≤ e₁ - e₂)
    (below : e₁ - e₂ ≤ 900) : Nearest (x / y) (k₁ * 2 ^ e₁ / (k₂ * 2 ^ e₂)) := by
  obtain ⟨k, s, i, reads, _, _, _, _, high, low⟩ := div_reads first second above below
  have divisor : (0 : ℚ) < k₂ := by
    have := second.low
    exact_mod_cast (by omega : 0 < k₂)
  have exact : (k₁ * 2 ^ e₁ / (k₂ * 2 ^ e₂) : ℚ) = k₁ * 2 ^ 53 / k₂ * 2 ^ (e₁ - e₂ - 53) := by
    rw [zpow_sub₀ two_ne_zero, zpow_sub₀ two_ne_zero]
    norm_num
    field_simp
  have high' : (2 * (k * 2 ^ i * (k₂ * 2 ^ s)) : ℚ) ≤ 2 * (k₁ * 2 ^ 53) + k₂ * 2 ^ s := by
    exact_mod_cast high
  have low' : (2 * (k₁ * 2 ^ 53) : ℚ) ≤ 2 * (k * 2 ^ i * (k₂ * 2 ^ s)) + k₂ * 2 ^ s := by
    exact_mod_cast low
  refine ⟨k, _, reads, exact ▸ scaled_near _ ?_ ?_⟩
  · rw [div_add' _ _ _ divisor.ne', le_div_iff₀ divisor]
    linarith
  · rw [div_le_iff₀ divisor]
    linarith

theorem add_nearest {a b : Nat} (first : Reads x k₁ (e + a)) (second : Reads y k₂ (e + b))
    (smaller : a = 0 ∨ b = 0) (least : -1074 ≤ e) (most : e + a + b ≤ 900) :
    Nearest (x + y) (k₁ * 2 ^ (e + a) + k₂ * 2 ^ (e + b)) := by
  obtain ⟨k, s, i, reads, _, high, low⟩ := add_reads first second smaller least most
  have exact : (k₁ * 2 ^ (e + a) + k₂ * 2 ^ (e + b) : ℚ) = (k₁ * 2 ^ a + k₂ * 2 ^ b) * 2 ^ e := by
    rw [zpow_add₀ two_ne_zero, zpow_add₀ two_ne_zero, zpow_natCast, zpow_natCast]
    ring
  have high' : (2 * (k * 2 ^ i * 2 ^ s) : ℚ) ≤ 2 * (k₁ * 2 ^ a + k₂ * 2 ^ b) + 2 ^ s := by
    exact_mod_cast high
  have low' : (2 * (k₁ * 2 ^ a + k₂ * 2 ^ b) : ℚ) ≤ 2 * (k * 2 ^ i * 2 ^ s) + 2 ^ s := by
    exact_mod_cast low
  refine ⟨k, _, reads, exact ▸ scaled_near _ ?_ ?_⟩ <;> linarith

theorem add_zero_reads {sign : Sign} (reads : Reads x k e) (zero : y.toModel.unpack = .zero sign)
    (least : -1074 ≤ e) (most : e ≤ 971) : Reads (x + y) k e ∧ Reads (y + x) k e := by
  obtain ⟨positive, unpack⟩ := reads.unpacks
  constructor
  · change Reads ⟨Float.Model.pack (UnpackedFloat.add Format.binary64 x.toModel.unpack
      y.toModel.unpack)⟩ k e
    rw [unpack, zero]
    exact reads_pack reads.low reads.high least most
  · change Reads ⟨Float.Model.pack (UnpackedFloat.add Format.binary64 y.toModel.unpack
      x.toModel.unpack)⟩ k e
    rw [unpack, zero]
    exact reads_pack reads.low reads.high least most

end Operations

theorem shifted_value (n j : Nat) : ((n * 2 ^ j : Nat) * 2 ^ (-j : Int) : ℚ) = n := by
  rw [zpow_neg, zpow_natCast]
  push_cast
  field_simp

theorem nat_toFloat_reads {n : Nat} (nonzero : 0 < n) (short : n < 2 ^ 53) :
    ∃ j : Nat, j ≤ 52 ∧ Reads n.toFloat (n * 2 ^ j) (-j) := by
  have bits : n.toUInt64.toNat = n := by
    rw [Nat.toUInt64_eq, UInt64.toNat_ofNat']
    omega
  obtain ⟨j, few, reads⟩ := toFloat_reads (n := n.toUInt64) (by omega) (by omega)
  rw [bits] at reads
  have one : Reads Float.exactlyRepresentablePowersOfTen[0] (2 ^ 52) (-52) :=
    ⟨⟨by decide, rfl⟩, by decide, by decide⟩
  have converted : n.toFloat = n.toUInt64.toFloat * Float.exactlyRepresentablePowersOfTen[0] := by
    change Float.ofScientific n false 0 = _
    rw [Float.ofScientific, dif_pos ⟨short, by decide⟩]
    rfl
  exact ⟨j, few, converted ▸ mul_one_reads reads one (by omega) (by omega)⟩

/-- The float is this number, to within a unit of its last place. -/
def Within (x : Float) (v : ℚ) : Prop :=
  ∃ k e, Reads x k e ∧ |(k : ℚ) * 2 ^ e - v| < 2 ^ e

theorem Nearest.within {x : Float} {v : ℚ} (nearest : Nearest x v) : Within x v := by
  obtain ⟨k, e, reads, near⟩ := nearest
  have unit : (0 : ℚ) < 2 ^ e := by positivity
  exact ⟨k, e, reads, near.trans_lt (by linarith)⟩

section Fraction
variable {x : Float} {v : ℚ} {k : Nat} {e : Int}

theorem unit_below_second (low : 2 ^ 52 ≤ k) (near : |(k : ℚ) * 2 ^ e - v| ≤ 2 ^ e / 2)
    (below : v ≤ 1 - 1 / 10 ^ 9) : e ≤ -53 := by
  by_contra large
  have unit : (2 : ℚ) ^ (-52 : Int) ≤ 2 ^ e := zpow_le_zpow_right₀ one_le_two (by omega)
  have mantissa : (2 ^ 52 : ℚ) ≤ k := by exact_mod_cast low
  have grown : (2 ^ 52 : ℚ) * 2 ^ e ≤ k * 2 ^ e := by gcongr
  have close := (abs_le.mp near).2
  norm_num at unit
  linarith

theorem unit_from {least : Int} (high : k < 2 ^ 53) (near : |(k : ℚ) * 2 ^ e - v| ≤ 2 ^ e / 2)
    (above : (2 : ℚ) ^ (least + 52) ≤ v) : least ≤ e := by
  by_contra small
  have positive : (0 : ℚ) < 2 ^ e := by positivity
  have mantissa : (k + 1 : ℚ) ≤ 2 ^ 53 := by exact_mod_cast high
  have close := (abs_le.mp near).1
  have small : (k + 1 : ℚ) * 2 ^ e ≤ v :=
    calc (k + 1 : ℚ) * 2 ^ e ≤ 2 ^ 53 * 2 ^ e := by gcongr
      _ = 2 ^ (53 + e) := by rw [zpow_add₀ two_ne_zero]; rfl
      _ ≤ 2 ^ (least + 52) := zpow_le_zpow_right₀ one_le_two (by omega)
      _ ≤ v := above
  linarith

end Fraction

theorem fraction_reads {rest : Nat} (nonzero : 0 < rest) (below : rest < 10 ^ 9) :
    ∃ k e, Reads (rest.toFloat / nanosPerSecond.toFloat) k e ∧
      |(k : ℚ) * 2 ^ e - rest / 10 ^ 9| ≤ 2 ^ e / 2 ∧ e ≤ -53 ∧ -83 ≤ e := by
  obtain ⟨j, few, reads⟩ := nat_toFloat_reads nonzero (by omega)
  obtain ⟨l, few', unit⟩ := nat_toFloat_reads (n := nanosPerSecond) (by decide) (by decide)
  have nearest := div_nearest reads unit (by omega) (by omega)
  have second : (nanosPerSecond : ℚ) = 10 ^ 9 := by norm_num [nanosPerSecond]
  rw [shifted_value, shifted_value, second] at nearest
  obtain ⟨k, e, reads, near⟩ := nearest
  have most : (rest / 10 ^ 9 : ℚ) ≤ 1 - 1 / 10 ^ 9 := by
    have : (rest + 1 : ℚ) ≤ 10 ^ 9 := by exact_mod_cast below
    linarith
  have least : (2 : ℚ) ^ (-83 + 52 : Int) ≤ rest / 10 ^ 9 := by
    have : (1 : ℚ) ≤ rest := by exact_mod_cast nonzero
    norm_num
    linarith
  exact ⟨k, e, reads, near, unit_below_second reads.low near most, unit_from reads.high near least⟩

/-- The units of a fraction are so much smaller than those of the sum that the errors of both stay
    within one unit. -/
theorem sum_within {x y : Float} {whole k : Nat} {e : Int} {v : ℚ} (nonzero : 0 < whole) {j : Nat}
    (first : Reads x (whole * 2 ^ j) (-j)) (long : j ≤ 52) (second : Reads y k e)
    (near : |(k : ℚ) * 2 ^ e - v| ≤ 2 ^ e / 2) (small : e ≤ -53) (enough : -83 ≤ e) :
    Within (x + y) (whole + v) := by
  obtain ⟨a, lift⟩ : ∃ a : Nat, (-j : Int) = e + a := ⟨(-j - e).toNat, by omega⟩
  obtain ⟨k', e', reads, sum_near⟩ :=
    add_nearest (b := 0) (lift ▸ first) (by simpa using second) (.inr rfl) (by omega) (by omega)
  rw [← lift, shifted_value, Nat.cast_zero, add_zero] at sum_near
  have one : (1 : ℚ) ≤ whole := by exact_mod_cast nonzero
  have more : (0 : ℚ) ≤ k * 2 ^ e := by positivity
  have unit : -52 ≤ e' := unit_from reads.high sum_near (by norm_num; linarith)
  have finer : (2 : ℚ) ^ e < 2 ^ e' := zpow_lt_zpow_right₀ one_lt_two (by omega)
  refine ⟨k', e', reads, ?_⟩
  rw [abs_le] at near sum_near
  rw [abs_lt]
  constructor <;> linarith

/-- Whatever is shorter than 2 ^ 53 seconds is told in seconds to within a unit of the last place. -/
theorem secondsOf_within {nanos : Nat} (passed : 0 < nanos) (short : nanos < 2 ^ 53 * 10 ^ 9) :
    Within (secondsOf nanos) (nanos / 10 ^ 9) := by
  have parts : nanos / nanosPerSecond * 10 ^ 9 + nanos % nanosPerSecond = nanos :=
    Nat.div_add_mod' nanos nanosPerSecond
  have below : nanos % nanosPerSecond < 10 ^ 9 := Nat.mod_lt nanos (by decide)
  have few : nanos / nanosPerSecond < 2 ^ 53 := Nat.div_lt_of_lt_mul (by rwa [Nat.mul_comm] at short)
  unfold secondsOf
  generalize nanos / nanosPerSecond = whole, nanos % nanosPerSecond = rest at *
  have exact : (nanos / 10 ^ 9 : ℚ) = whole + rest / 10 ^ 9 := by
    rw [← parts]
    push_cast
    ring
  rw [exact]
  rcases Nat.eq_zero_or_pos rest with rfl | some_rest
  · obtain ⟨j, _, reads⟩ := nat_toFloat_reads (n := whole) (by omega) few
    have none : (Nat.toFloat 0 / nanosPerSecond.toFloat).toModel.unpack = .zero .positive := rfl
    refine ⟨_, _, (add_zero_reads reads none (by omega) (by omega)).1, ?_⟩
    rw [shifted_value]
    simp
  · obtain ⟨k, e, reads, near, small, enough⟩ := fraction_reads some_rest below
    rcases Nat.eq_zero_or_pos whole with rfl | some_whole
    · have none : (Nat.toFloat 0).toModel.unpack = .zero .positive := rfl
      refine Nearest.within ⟨k, e, (add_zero_reads reads none (by omega) (by omega)).2, ?_⟩
      simpa using near
    · obtain ⟨j, long, whole_reads⟩ := nat_toFloat_reads some_whole few
      exact sum_within some_whole whole_reads long reads near small enough

/-- A span in seconds, as it is computed and how far that can be from its length. -/
structure InSeconds (x : Float) (nanos : Nat) : Prop where
  parts : ∀ whole rest, rest < 1000000000 → whole * 1000000000 + rest = nanos →
    x = whole.toFloat + rest.toFloat / (1000000000 : Nat).toFloat
  within : 0 < nanos → nanos < 2 ^ 53 * 10 ^ 9 → Within x (nanos / 10 ^ 9)

theorem secondsOf_inSeconds (nanos : Nat) : InSeconds (secondsOf nanos) nanos where
  parts whole rest below total := by
    have parted : nanos / nanosPerSecond = whole ∧ nanos % nanosPerSecond = rest := by
      unfold nanosPerSecond
      omega
    rw [secondsOf, parted.1, parted.2]
    rfl
  within := secondsOf_within

end ClusterLedger
