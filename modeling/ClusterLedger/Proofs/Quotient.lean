import ClusterLedger.Calculator
import ClusterLedger.Proofs.Amount
import Mathlib
/- Whole numbers as binary64 numbers, their quotients, and the whole count above a quotient. Only
   numbers whose mantissa fills its width occur: the count is exact for every dividend below 2 ^ 53,
   because the quotient then errs by less than its distance from the next whole number. -/
namespace ClusterLedger
open Float.Model Float.Model.UnpackedFloat

theorem unpack_pack {k : Nat} {e : Int} (positive : 0 < k) (low : 2 ^ 52 ≤ k) (high : k < 2 ^ 53)
    (least : -1074 ≤ e) (most : e ≤ 971) :
    (Float.Model.pack (.finite .positive k e positive)).unpack = .finite .positive k e positive := by
  have width : k.log2 = 52 := (Nat.log2_eq_iff (by omega)).mpr ⟨low, high⟩
  obtain ⟨biased, shifted⟩ : ∃ b : Nat, e + 1075 = b := ⟨(e + 1075).toNat, by omega⟩
  have packed : UnpackedFloat.pack Format.binary64 (.finite .positive k e positive) =
      packComponents Format.binary64 .positive (BitVec.ofNat 11 biased) (BitVec.ofNat 52 k) := by
    have bias : (e + Format.binary64.exponentBias + (52 : Nat)).toNat = biased := by
      simp [Format.exponentBias]
      omega
    simp only [UnpackedFloat.pack, bias, width, Format.mantissaBits]
    rw [if_neg (by omega)]
    rfl
  have finite : BitVec.ofNat 11 biased ≠ -1#11 := by
    intro same
    have bits := congrArg BitVec.toNat same
    simp at bits
    omega
  have normal : BitVec.ofNat 11 biased ≠ 0#11 := by
    intro same
    have bits := congrArg BitVec.toNat same
    simp at bits
    omega
  simp only [Float.Model.pack, Float.Model.unpack, packed, UnpackedFloat.unpack,
    unpackMantissa_packComponents, unpackExponent_packComponents, unpackSign_packComponents]
  rw [if_neg finite, if_neg normal]
  congr 1
  · rw [BitVec.toNat_append, ← Nat.shiftLeft_add_eq_or_of_lt (BitVec.isLt _)]
    simp
    omega
  · simp [Format.exponentBias]
    omega

/-- The float is a normal number: this mantissa, which fills its width, times a power of two. -/
structure Reads (x : Float) (k : Nat) (e : Int) : Prop where
  unpacks : ∃ positive, x.toModel.unpack = .finite .positive k e positive
  low : 2 ^ 52 ≤ k
  high : k < 2 ^ 53

theorem shift_mantissa (em : ExtendedMantissa) (s : Nat) :
    (em >>> s).mantissa = em.mantissa / 2 ^ s := by
  change (s.repeat ExtendedMantissa.shiftRightOne em).mantissa = _
  induction s with
  | zero => simp [Nat.repeat]
  | succ s ih =>
    simp only [Nat.repeat, ExtendedMantissa.shiftRightOne, ih, Nat.div_div_eq_div_mul, Nat.pow_succ]

theorem rounded_bounds (em : ExtendedMantissa) :
    em.mantissa ≤ em.roundedMantissa ∧ em.roundedMantissa ≤ em.mantissa + 1 := by
  obtain ⟨m, rb, sb⟩ := em
  cases rb <;> cases sb <;>
    simp [ExtendedMantissa.roundedMantissa, ExtendedMantissa.accuracy, Accuracy.roundToNearestEven]
  omega

theorem ofMantissaAndAccuracy_mantissa (m : Nat) (acc : Accuracy) :
    (ExtendedMantissa.ofMantissaAndAccuracy m acc).mantissa = m := by
  rcases acc with _ | (_ | _ | _) <;> rfl

theorem shiftToTarget {m s : Nat} {e : Int} (acc : Accuracy) (width : m.log2 = 52 + s)
    (least : -1074 ≤ e) : shiftToTargetExponent Format.binary64 m e acc =
      (ExtendedMantissa.ofMantissaAndAccuracy m acc >>> s, e + s) := by
  have shift : (Format.binary64.targetExponent (totalExponent m e) - e).toNat = s := by
    simp only [Format.targetExponent, totalExponent, width, Format.mantissaBits, Format.minExponent]
    omega
  simp only [shiftToTargetExponent, shiftToExponent, shift]

theorem dropped_fills {m s : Nat} (width : m.log2 = 52 + s) :
    2 ^ 52 ≤ m / 2 ^ s ∧ m / 2 ^ s < 2 ^ 53 := by
  have above : m ≠ 0 := by
    rintro rfl
    simp at width
    omega
  obtain ⟨low, high⟩ := (Nat.log2_eq_iff above).mp width
  constructor
  · rw [Nat.le_div_iff_mul_le (Nat.two_pow_pos s), ← Nat.pow_add]
    exact low
  · rw [Nat.div_lt_iff_lt_mul (Nat.two_pow_pos s), ← Nat.pow_add]
    exact lt_of_lt_of_eq high (by ring)

theorem rounded_width {m : Nat} (low : 2 ^ 52 ≤ m) (high : m ≤ 2 ^ 53) :
    ∃ i, i ≤ 1 ∧ m.log2 = 52 + i ∧ m / 2 ^ i * 2 ^ i = m := by
  by_cases full : m = 2 ^ 53
  · exact ⟨1, le_rfl, by rw [full, Nat.log2_two_pow], by rw [full]; rfl⟩
  · exact ⟨0, Nat.zero_le 1, (Nat.log2_eq_iff (by omega)).mpr ⟨by omega, by omega⟩, by simp⟩

/-- Rounding a mantissa that is `s` bits too wide: the shifted mantissa is rounded, and shifted once
    more if that filled another bit. -/
theorem round_finite {m s : Nat} {e : Int} {acc : Accuracy} (width : m.log2 = 52 + s)
    (least : -1074 ≤ e) :
    ∃ (k i : Nat) (positive : 0 < k), roundWithAccuracy Format.binary64 .positive m e acc =
      .finite .positive k (e + s + i) positive ∧ 2 ^ 52 ≤ k ∧ k < 2 ^ 53 ∧ i ≤ 1 ∧
      k * 2 ^ i = (ExtendedMantissa.ofMantissaAndAccuracy m acc >>> s).roundedMantissa := by
  generalize shifted : ExtendedMantissa.ofMantissaAndAccuracy m acc >>> s = x
  have mantissa : x.mantissa = m / 2 ^ s := by
    rw [← shifted, shift_mantissa, ofMantissaAndAccuracy_mantissa]
  obtain ⟨low, high⟩ := dropped_fills width
  obtain ⟨atLeast, atMost⟩ := rounded_bounds x
  obtain ⟨i, once, wide, whole⟩ := rounded_width (m := x.roundedMantissa) (by omega) (by omega)
  obtain ⟨lower, upper⟩ := dropped_fills wide
  refine ⟨x.roundedMantissa / 2 ^ i, i, by omega, ?_, lower, upper, once, whole⟩
  have nonzero : x.roundedMantissa / 2 ^ i ≠ 0 := by omega
  have final : (ExtendedMantissa.ofMantissaAndAccuracy x.roundedMantissa .exact >>> i).mantissa =
      x.roundedMantissa / 2 ^ i := by
    rw [shift_mantissa, ofMantissaAndAccuracy_mantissa]
  simp only [roundWithAccuracy, shiftToTarget acc width least, shifted,
    shiftToTarget .exact wide (by omega : -1074 ≤ e + s), final, nonzero, ↓reduceDIte]

theorem reads_pack {k : Nat} {e : Int} {positive : 0 < k} (low : 2 ^ 52 ≤ k) (high : k < 2 ^ 53)
    (least : -1074 ≤ e) (most : e ≤ 971) :
    Reads ⟨Float.Model.pack (.finite .positive k e positive)⟩ k e :=
  ⟨⟨positive, unpack_pack positive low high least most⟩, low, high⟩

/-- The mantissa is a quotient cut to a whole number, and the bits tell what was cut off: at least a
    half, and neither nothing nor exactly a half. -/
structure Cuts (em : ExtendedMantissa) (num den : Nat) : Prop where
  mantissa : em.mantissa = num / den
  roundBit : em.roundBit = true ↔ den ≤ 2 * (num % den)
  stickyBit : em.stickyBit = true ↔ num % den ≠ 0 ∧ 2 * (num % den) ≠ den

theorem cuts_fraction (num : Nat) {den : Nat} (nonzero : 0 < den) :
    Cuts (.ofMantissaAndAccuracy (num / den) (accuracyOfFraction (num % den) den)) num den := by
  unfold accuracyOfFraction
  split
  · rename_i divides
    refine ⟨rfl, ?_, ?_⟩ <;> simp [ExtendedMantissa.ofMantissaAndAccuracy, divides]
    omega
  · rcases Nat.lt_trichotomy (2 * (num % den)) den with below | half | above
    · rw [Nat.compare_eq_lt.mpr below]
      refine ⟨rfl, ?_, ?_⟩ <;> simp [ExtendedMantissa.ofMantissaAndAccuracy] <;> omega
    · rw [Nat.compare_eq_eq.mpr half]
      refine ⟨rfl, ?_, ?_⟩ <;> simp [ExtendedMantissa.ofMantissaAndAccuracy] <;> omega
    · rw [Nat.compare_eq_gt.mpr above]
      refine ⟨rfl, ?_, ?_⟩ <;> simp [ExtendedMantissa.ofMantissaAndAccuracy] <;> omega

variable {em : ExtendedMantissa} {num den : Nat}

theorem Cuts.shiftRightOne (cuts : Cuts em num den) (nonzero : 0 < den) :
    Cuts em.shiftRightOne num (den * 2) := by
  have rest : num % (den * 2) = num % den + den * (num / den % 2) := Nat.mod_mul
  have below := Nat.mod_lt num nonzero
  have bit : num / den % 2 = 0 ∨ num / den % 2 = 1 := by omega
  refine ⟨?_, ?_, ?_⟩
  · simp only [ExtendedMantissa.shiftRightOne, cuts.mantissa, Nat.div_div_eq_div_mul]
  · simp only [ExtendedMantissa.shiftRightOne, cuts.mantissa, rest, bne_iff_ne]
    rcases bit with zero | one
    · rw [zero]
      omega
    · rw [one]
      omega
  · simp only [ExtendedMantissa.shiftRightOne, Bool.or_eq_true, cuts.roundBit, cuts.stickyBit, rest]
    rcases bit with zero | one
    · rw [zero]
      omega
    · rw [one]
      omega

theorem Cuts.shiftRight (cuts : Cuts em num den) (nonzero : 0 < den) (s : Nat) :
    Cuts (em >>> s) num (den * 2 ^ s) := by
  change Cuts (s.repeat ExtendedMantissa.shiftRightOne em) num _
  induction s with
  | zero => simpa [Nat.repeat] using cuts
  | succ s ih =>
    rw [Nat.pow_succ, ← Nat.mul_assoc]
    exact ih.shiftRightOne (Nat.mul_pos nonzero (Nat.two_pow_pos s))

theorem Cuts.rounded (cuts : Cuts em num den) (nonzero : 0 < den) :
    2 * (em.roundedMantissa * den) ≤ 2 * num + den ∧
      2 * num ≤ 2 * (em.roundedMantissa * den) + den := by
  obtain ⟨m, half, more⟩ := em
  obtain ⟨mantissa, half_iff, more_iff⟩ := cuts
  have whole := Nat.div_add_mod' num den
  have below := Nat.mod_lt num nonzero
  change m = num / den at mantissa
  rw [← mantissa] at whole
  have parity : m % 2 = 0 ∨ m % 2 = 1 := by omega
  cases half <;> cases more <;>
    simp only [Bool.false_eq_true, false_iff, true_iff] at half_iff more_iff <;>
    simp only [ExtendedMantissa.roundedMantissa, ExtendedMantissa.accuracy,
      Accuracy.roundToNearestEven, Nat.add_mul, Nat.one_mul]
  · omega
  · omega
  · rcases parity with even | odd
    · rw [even]
      omega
    · rw [odd]
      omega
  · omega

theorem round_whole {m s : Nat} {e : Int} (width : m.log2 = 52 + s) (least : -1074 ≤ e) :
    ∃ (k i : Nat) (positive : 0 < k), roundWithAccuracy Format.binary64 .positive m e .exact =
      .finite .positive k (e + s + i) positive ∧ 2 ^ 52 ≤ k ∧ k < 2 ^ 53 ∧ i ≤ 1 ∧
      2 * (k * 2 ^ i * 2 ^ s) ≤ 2 * m + 2 ^ s ∧ 2 * m ≤ 2 * (k * 2 ^ i * 2 ^ s) + 2 ^ s := by
  obtain ⟨k, i, positive, rounded, lower, upper, once, value⟩ :=
    @round_finite m s e .exact width least
  have cuts : Cuts (.ofMantissaAndAccuracy m .exact) m 1 := by
    simpa [accuracyOfFraction, Nat.mod_one] using cuts_fraction m Nat.one_pos
  have near := (cuts.shiftRight Nat.one_pos s).rounded (by positivity)
  rw [← value, Nat.one_mul] at near
  exact ⟨k, i, positive, rounded, lower, upper, once, near⟩

theorem log2_mul_two_pow {n : Nat} (positive : n ≠ 0) (j : Nat) :
    (n * 2 ^ j).log2 = n.log2 + j := by
  induction j with
  | zero => simp
  | succ j ih =>
    have doubled : n * 2 ^ (j + 1) = 2 * (n * 2 ^ j) := by ring
    rw [doubled, Nat.log2_two_mul (by positivity), ih, Nat.add_assoc]

theorem toFloat_rounds {n : UInt64} (nonzero : 0 < n.toNat) : ∃ k j s i : Nat,
    Reads n.toFloat k (-j + s + i) ∧ (n.toNat * 2 ^ j).log2 = 52 + s ∧ (j = 0 ∨ s = 0) ∧ i ≤ 1 ∧
      2 * (k * 2 ^ i * 2 ^ s) ≤ 2 * (n.toNat * 2 ^ j) + 2 ^ s ∧
      2 * (n.toNat * 2 ^ j) ≤ 2 * (k * 2 ^ i * 2 ^ s) + 2 ^ s := by
  have positive : n.toNat ≠ 0 := by omega
  have bound : n.toNat.log2 < 64 := (Nat.log2_lt positive).mpr n.toNat_lt
  obtain ⟨j, s, width, one⟩ : ∃ j s, n.toNat.log2 + j = 52 + s ∧ (j = 0 ∨ s = 0) :=
    ⟨52 - n.toNat.log2, n.toNat.log2 - 52, by omega, by omega⟩
  have filled : (n.toNat * 2 ^ j).log2 = 52 + s := (log2_mul_two_pow positive j).trans width
  have shift : (-Format.binary64.targetExponent (totalExponent n.toNat 0)).toNat = j := by
    simp only [Format.targetExponent, totalExponent, Format.mantissaBits, Format.minExponent]
    omega
  have above : compare (n.toNat : Int) 0 = .gt := by
    rw [Int.compare_eq_gt]
    omega
  obtain ⟨k, i, positive', rounded, lower, upper, narrow, near⟩ :=
    @round_whole (n.toNat * 2 ^ j) s (-j) filled (by omega)
  have converted : n.toFloat = ⟨Float.Model.pack (.finite .positive k (-j + s + i) positive')⟩ := by
    rw [UInt64.toFloat, Float.Model.ofUInt64, ← rounded]
    simp only [UnpackedFloat.ofUInt64, UnpackedFloat.ofNat, UnpackedFloat.ofInt,
      UnpackedFloat.normalize, above, UnpackedFloat.round, decreaseExponent, shift,
      Int.toNat_natCast, Nat.shiftLeft_eq, Int.zero_sub]
  exact ⟨k, j, s, i, converted ▸ reads_pack lower upper (by omega) (by omega), filled, one, narrow, near⟩

theorem toFloat_reads {n : UInt64} (nonzero : 0 < n.toNat) (short : n.toNat < 2 ^ 53) :
    ∃ j : Nat, j ≤ 52 ∧ Reads n.toFloat (n.toNat * 2 ^ j) (-j) := by
  obtain ⟨k, j, s, i, reads, filled, one, narrow, near⟩ := toFloat_rounds nonzero
  have bound : n.toNat.log2 < 53 := (Nat.log2_lt (by omega)).mpr short
  obtain rfl : s = 0 := by
    rcases one with rfl | rfl
    · rw [Nat.pow_zero, Nat.mul_one] at filled
      omega
    · rfl
  obtain ⟨low, high⟩ := (Nat.log2_eq_iff (by positivity)).mp filled
  have normal := reads.low
  obtain rfl : i = 0 := by
    by_contra more
    obtain rfl : i = 1 := by omega
    omega
  obtain rfl : k = n.toNat * 2 ^ j := by omega
  have few : j ≤ 52 := (Nat.pow_lt_pow_iff_right (by decide)).mp
    (lt_of_le_of_lt (Nat.le_mul_of_pos_left _ nonzero) high) |> Nat.le_of_lt_succ
  exact ⟨j, few, by simpa using reads⟩

theorem toFloat_reads_long {n : UInt64} (long : 2 ^ 53 ≤ n.toNat) :
    ∃ k c : Nat, 1 ≤ c ∧ c ≤ 12 ∧ Reads n.toFloat k c := by
  obtain ⟨k, j, s, i, reads, filled, one, narrow, near⟩ := toFloat_rounds (n := n) (by omega)
  have most : n.toNat.log2 < 64 := (Nat.log2_lt (by omega)).mpr n.toNat_lt
  have least : 53 ≤ n.toNat.log2 := (Nat.le_log2 (by omega)).mpr long
  obtain rfl : j = 0 := by
    rcases one with unshifted | rfl
    · exact unshifted
    · have high := (Nat.log2_lt (by positivity)).mp (Nat.lt_succ_of_le filled.le)
      have grown : n.toNat ≤ n.toNat * 2 ^ j := Nat.le_mul_of_pos_right _ (Nat.two_pow_pos j)
      omega
  rw [Nat.pow_zero, Nat.mul_one] at filled
  exact ⟨k, s + i, by omega, by omega, by simpa using reads⟩

section Division
variable {x y : Float} {k k₁ k₂ : Nat} {e₁ e₂ : Int}

theorem Reads.width {e : Int} (reads : Reads x k e) : k.log2 = 52 :=
  (Nat.log2_eq_iff (by have := reads.low; omega)).mpr ⟨reads.low, reads.high⟩

/-- The quotient of the mantissas is taken with 53 more bits, of which one may be too many. -/
theorem div_reads (first : Reads x k₁ e₁) (second : Reads y k₂ e₂) (above : -900 ≤ e₁ - e₂)
    (below : e₁ - e₂ ≤ 900) : ∃ k s i : Nat, Reads (x / y) k (e₁ - e₂ - 53 + s + i) ∧ s ≤ 1 ∧
      i ≤ 1 ∧ 2 ^ 52 * (k₂ * 2 ^ s) ≤ k₁ * 2 ^ 53 ∧ k₁ < k₂ * 2 ^ s ∧
      2 * (k * 2 ^ i * (k₂ * 2 ^ s)) ≤ 2 * (k₁ * 2 ^ 53) + k₂ * 2 ^ s ∧
      2 * (k₁ * 2 ^ 53) ≤ 2 * (k * 2 ^ i * (k₂ * 2 ^ s)) + k₂ * 2 ^ s := by
  obtain ⟨positive₁, unpack₁⟩ := first.unpacks
  obtain ⟨positive₂, unpack₂⟩ := second.unpacks
  have low₁ := first.low
  have high₁ := first.high
  have low₂ := second.low
  have high₂ := second.high
  have core : divCore Format.binary64 k₁ e₁ k₂ e₂ = (k₁ * 2 ^ 53 / k₂, e₁ - e₂ - 53,
      accuracyOfFraction (k₁ * 2 ^ 53 % k₂) k₂) := by
    have target : min (e₁ - e₂) (Format.binary64.targetExponent
        (totalExponent k₁ e₁ - totalExponent k₂ e₂)) = e₁ - e₂ - 53 := by
      simp only [Format.targetExponent, totalExponent, first.width, second.width,
        Format.mantissaBits, Format.minExponent]
      omega
    have shift : (e₁ - e₂ - (e₁ - e₂ - 53)).toNat = 53 := by omega
    simp only [divCore, target, shift, Nat.shiftLeft_eq]
  have atLeast : 2 ^ 52 ≤ k₁ * 2 ^ 53 / k₂ := by
    rw [Nat.le_div_iff_mul_le positive₂]
    omega
  obtain ⟨s, narrow, width⟩ : ∃ s, s ≤ 1 ∧ (k₁ * 2 ^ 53 / k₂).log2 = 52 + s := by
    have atMost : k₁ * 2 ^ 53 / k₂ < 2 ^ 54 := by
      rw [Nat.div_lt_iff_lt_mul positive₂]
      omega
    have least := (Nat.le_log2 (by omega)).mpr atLeast
    have most := (Nat.log2_lt (by omega)).mpr atMost
    exact ⟨(k₁ * 2 ^ 53 / k₂).log2 - 52, by omega, by omega⟩
  obtain ⟨k, i, positive, rounded, lower, upper, once, value⟩ :=
    @round_finite (k₁ * 2 ^ 53 / k₂) s (e₁ - e₂ - 53) (accuracyOfFraction (k₁ * 2 ^ 53 % k₂) k₂) width
      (by omega)
  have quotient : x / y = ⟨Float.Model.pack (.finite .positive k (e₁ - e₂ - 53 + s + i) positive)⟩ := by
    have divided : UnpackedFloat.div Format.binary64 x.toModel.unpack y.toModel.unpack =
        .finite .positive k (e₁ - e₂ - 53 + s + i) positive := by
      rw [unpack₁, unpack₂, UnpackedFloat.div, core]
      exact rounded
    change (⟨Float.Model.pack (UnpackedFloat.div Format.binary64 x.toModel.unpack
      y.toModel.unpack)⟩ : Float) = _
    rw [divided]
  have near := ((cuts_fraction (k₁ * 2 ^ 53) positive₂).shiftRight positive₂ s).rounded
    (Nat.mul_pos positive₂ (Nat.two_pow_pos s))
  rw [← value] at near
  refine ⟨k, s, i, quotient ▸ reads_pack lower upper (by omega) (by omega), narrow, once, ?_, ?_, near⟩
  · have filled := ((Nat.log2_eq_iff (by omega)).mp width).1
    rw [Nat.le_div_iff_mul_le positive₂, Nat.pow_add] at filled
    linarith
  · have filled := ((Nat.log2_eq_iff (by omega)).mp width).2
    rw [Nat.div_lt_iff_lt_mul positive₂, Nat.add_right_comm, Nat.pow_add] at filled
    exact Nat.lt_of_mul_lt_mul_right (filled.trans_eq (by ring))

end Division

section Counting
variable {x y : Float} {k k₁ k₂ j j₁ j₂ : Nat}

theorem toUInt64_reads (reads : Reads x k (-j)) : x.toUInt64.toNat = k / 2 ^ j := by
  obtain ⟨positive, unpack⟩ := reads.unpacks
  have short := reads.high
  have whole : (Float.Model.UnpackedFloat.toInt 0 (UInt64.size - 1) x.toModel.unpack).toNat =
      k / 2 ^ j := by
    have still : (-j - 0 : Int).toNat = 0 := by omega
    have shift : (0 - (-j - (0 : Nat)) : Int).toNat = j := by omega
    rw [unpack]
    simp only [UnpackedFloat.toInt, roundToInt, decreaseExponent, shiftToExponent, still, shift,
      Sign.apply, shift_mantissa, ofMantissaAndAccuracy_mantissa, Int.toNat_natCast,
      Nat.shiftLeft_zero]
  have within : k / 2 ^ j ≤ k := Nat.div_le_self _ _
  have size : UInt64.size = 2 ^ 64 := rfl
  change (UInt64.ofNatClamp (Float.Model.UnpackedFloat.toInt 0 (UInt64.size - 1)
    x.toModel.unpack).toNat).toNat = _
  rw [whole, Resource.clamp64]
  omega

theorem lt_iff_unpacked : x < y ↔ x.toModel.unpack.lt y.toModel.unpack = true := by
  change decide (x.toModel < y.toModel) = true ↔ _
  rw [decide_eq_true_iff]
  rfl

theorem scaled_lt {a b : Nat} (high : k₁ < 2 ^ 53) (low : 2 ^ 52 ≤ k₂) (less : a < b) :
    k₁ * 2 ^ a < k₂ * 2 ^ b :=
  calc k₁ * 2 ^ a < 2 ^ 53 * 2 ^ a := Nat.mul_lt_mul_of_pos_right high (Nat.two_pow_pos a)
    _ = 2 ^ 52 * 2 ^ (a + 1) := by ring
    _ ≤ k₂ * 2 ^ b := Nat.mul_le_mul low (Nat.pow_le_pow_right (by decide) less)

theorem lt_reads (first : Reads x k₁ (-j₁)) (second : Reads y k₂ (-j₂)) :
    x < y ↔ k₁ * 2 ^ j₂ < k₂ * 2 ^ j₁ := by
  obtain ⟨positive₁, unpack₁⟩ := first.unpacks
  obtain ⟨positive₂, unpack₂⟩ := second.unpacks
  rw [lt_iff_unpacked, unpack₁, unpack₂]
  simp only [UnpackedFloat.lt, UnpackedFloat.compare, beq_iff_eq, Option.some.injEq]
  rcases Nat.lt_trichotomy j₁ j₂ with less | rfl | more
  · rw [Int.compare_eq_gt.mpr (by omega)]
    simpa using (scaled_lt second.high first.low less).le
  · simp [Nat.compare_eq_lt, Nat.mul_lt_mul_right (Nat.two_pow_pos j₁)]
  · rw [Int.compare_eq_lt.mpr (by omega)]
    simpa using scaled_lt first.high second.low more

theorem zero_lt_reads (reads : Reads x k (-j)) : (0 : UInt64).toFloat < x := by
  obtain ⟨positive, unpack⟩ := reads.unpacks
  have zero : (0 : UInt64).toFloat.toModel.unpack = .zero .positive := rfl
  rw [lt_iff_unpacked, unpack, zero]
  rfl

theorem cut_lt_iff (reads : Reads x k (-j)) : x.toUInt64.toFloat < x ↔ k / 2 ^ j * 2 ^ j < k := by
  have cut := toUInt64_reads reads
  have short := reads.high
  have low := reads.low
  have within : k / 2 ^ j ≤ k := Nat.div_le_self _ _
  rcases Nat.eq_zero_or_pos (k / 2 ^ j) with zero | nonzero
  · have empty : x.toUInt64 = 0 := UInt64.toNat_inj.mp (cut.trans zero)
    rw [empty, zero, Nat.zero_mul]
    exact iff_of_true (zero_lt_reads reads) (by omega)
  · obtain ⟨i, _, exact⟩ := toFloat_reads (cut ▸ nonzero) (by omega)
    rw [lt_reads exact reads, cut, Nat.mul_right_comm]
    exact Nat.mul_lt_mul_right (Nat.two_pow_pos i)

theorem wholeCount_reads (reads : Reads x k (-j)) {n : Nat} (enough : k ≤ n * 2 ^ j)
    (least : n * 2 ^ j < k + 2 ^ j) : wholeCount x = .ofNatClamp n := by
  have unit := Nat.two_pow_pos j
  have below : k / 2 ^ j * 2 ^ j ≤ k := Nat.div_mul_le_self _ _
  have above : k < (k / 2 ^ j + 1) * 2 ^ j := by
    rw [Nat.add_mul, Nat.one_mul]
    exact Nat.lt_div_mul_add unit
  simp only [wholeCount, cut_lt_iff reads, toUInt64_reads reads]
  congr 1
  split
  · have more : k / 2 ^ j < n := Nat.lt_of_mul_lt_mul_right (by omega : _ * 2 ^ j < n * 2 ^ j)
    have less : n < k / 2 ^ j + 2 := Nat.lt_of_mul_lt_mul_right (a := 2 ^ j) (by linarith)
    omega
  · have more : k / 2 ^ j ≤ n := Nat.le_of_mul_le_mul_right (by omega : _ * 2 ^ j ≤ n * 2 ^ j) unit
    have less : n < k / 2 ^ j + 1 := Nat.lt_of_mul_lt_mul_right (a := 2 ^ j) (by linarith)
    omega

end Counting

/-- A number `r / u` that is near the quotient `a / b` and finer than its difference from any whole
    number lies between the same whole numbers. -/
theorem count_of_near {a b r n u : Nat} (short : a < 2 ^ 53) (fine : 2 ^ 52 * b ≤ a * u)
    (unit : 0 < u) (above : 2 * (r * b) ≤ 2 * (a * u) + b) (below : 2 * (a * u) ≤ 2 * (r * b) + b)
    (enough : a ≤ n * b) (least : n * b < a + b) : r ≤ n * u ∧ n * u < r + u := by
  have nonzero : 0 < b := by omega
  have most : a * u ≤ n * u * b := (Nat.mul_le_mul_right u enough).trans_eq (Nat.mul_right_comm n b u)
  constructor
  · by_contra more
    have step : (n * u + 1) * b ≤ r * b := Nat.mul_le_mul_right b (by omega)
    rw [Nat.add_mul, Nat.one_mul] at step
    omega
  · by_contra less
    have step : (r + u) * b ≤ n * u * b := Nat.mul_le_mul_right b (by omega)
    have next : n * b * u + u ≤ (a + b) * u := by
      rw [← Nat.succ_mul]
      exact Nat.mul_le_mul_right u least
    have coarse : a * u < 2 ^ 53 * u := Nat.mul_lt_mul_of_pos_right short unit
    rw [Nat.add_mul] at step next
    rw [Nat.mul_right_comm] at step
    rw [Nat.mul_comm u b] at step
    omega

theorem wholeCount_div {x y : Float} {a b k j c l n : Nat} (first : Reads x (a * 2 ^ j) (-j))
    (second : Reads y k (c - l)) (value : k * 2 ^ c = b * 2 ^ l) (shift : j ≤ 52)
    (long : c ≤ 12) (few : l ≤ 52) (short : a < 2 ^ 53) (enough : a ≤ n * b)
    (least : n * b < a + b) : wholeCount (x / y) = .ofNatClamp n := by
  obtain ⟨q, s, i, reads, narrow, once, fine, _, above, below⟩ :=
    div_reads first second (by omega) (by omega)
  obtain ⟨g, scale⟩ : ∃ g, j + c + 53 = g + (l + s) := ⟨j + c + 53 - (l + s), by omega⟩
  -- Both operands are scaled by the same power of two, which cancels in every inequality.
  have dividend : a * 2 ^ j * 2 ^ 53 * 2 ^ c = a * 2 ^ g * 2 ^ (l + s) := by
    calc a * 2 ^ j * 2 ^ 53 * 2 ^ c = a * 2 ^ (j + c + 53) := by ring
      _ = a * 2 ^ g * 2 ^ (l + s) := by rw [scale]; ring
  have divisor : k * 2 ^ s * 2 ^ c = b * 2 ^ (l + s) := by
    calc k * 2 ^ s * 2 ^ c = k * 2 ^ c * 2 ^ s := by ring
      _ = b * 2 ^ (l + s) := by rw [value]; ring
  have product : q * 2 ^ i * (k * 2 ^ s * 2 ^ c) = q * 2 ^ i * (b * 2 ^ (l + s)) := by rw [divisor]
  have cancel : ∀ {u v u' v' : Nat}, u ≤ v → u * 2 ^ c = u' * 2 ^ (l + s) →
      v * 2 ^ c = v' * 2 ^ (l + s) → u' ≤ v' := by
    intro u v u' v' le same same'
    refine Nat.le_of_mul_le_mul_right (same ▸ same' ▸ Nat.mul_le_mul_right _ le)
      (Nat.two_pow_pos (l + s))
  have fine' : 2 ^ 52 * b ≤ a * 2 ^ g := cancel fine (by linarith) dividend
  have above' : 2 * (q * 2 ^ i * b) ≤ 2 * (a * 2 ^ g) + b := cancel above (by linarith) (by linarith)
  have below' : 2 * (a * 2 ^ g) ≤ 2 * (q * 2 ^ i * b) + b := cancel below (by linarith) (by linarith)
  obtain ⟨most, more⟩ :=
    count_of_near short fine' (Nat.two_pow_pos g) above' below' enough least
  have low := reads.low
  -- Rounding up to the next power of two would need a quotient longer than a mantissa.
  obtain ⟨d, rfl⟩ : ∃ d, g = d + i := by
    refine Nat.exists_eq_add_of_le' ?_
    by_contra carry
    obtain ⟨rfl, rfl⟩ : g = 0 ∧ i = 1 := by omega
    have few : n ≤ a := by
      by_contra many
      have step : (a + 1) * b ≤ n * b := Nat.mul_le_mul_right b (by omega)
      have grown : a * 1 ≤ a * b := Nat.mul_le_mul_left a (by omega)
      rw [Nat.add_mul] at step
      omega
    omega
  rw [Nat.pow_add, ← Nat.mul_assoc] at most more
  rw [← Nat.add_mul] at more
  refine wholeCount_reads (j := d) ?_ (Nat.le_of_mul_le_mul_right most (Nat.two_pow_pos i))
    (Nat.lt_of_mul_lt_mul_right more)
  have exponent : (-j - (c - l) - 53 + s + i : Int) = -d := by omega
  exact exponent ▸ reads

/-- The whole count of a quotient of whole numbers is the quotient rounded up, if the dividend is not
    too long for a mantissa. The divisor may be. -/
theorem wholeCount_quotient {m d : UInt64} (nonzero : 0 < m.toNat) (unit : 0 < d.toNat)
    (short : m.toNat < 2 ^ 53) {n : Nat} (enough : m.toNat ≤ n * d.toNat)
    (least : n * d.toNat < m.toNat + d.toNat) :
    wholeCount (m.toFloat / d.toFloat) = .ofNatClamp n := by
  obtain ⟨j, shift, dividend⟩ := toFloat_reads nonzero short
  by_cases fits : d.toNat < 2 ^ 53
  · obtain ⟨l, few, divisor⟩ := toFloat_reads unit fits
    exact wholeCount_div (c := 0) dividend (by simpa using divisor) (Nat.mul_one _) shift
      (by omega) few short enough least
  · obtain ⟨k, c, more, long, divisor⟩ := toFloat_reads_long (Nat.le_of_not_lt fits)
    have low := divisor.low
    have large : 2 ^ 53 ≤ k * 2 ^ c :=
      calc 2 ^ 53 = 2 ^ 52 * 2 ^ 1 := by norm_num
        _ ≤ k * 2 ^ c := Nat.mul_le_mul low (Nat.pow_le_pow_right (by decide) more)
    obtain rfl : n = 1 := by
      have less : n < 2 := Nat.lt_of_mul_lt_mul_right (a := d.toNat) (by omega)
      have more : n ≠ 0 := by
        rintro rfl
        omega
      omega
    exact wholeCount_div (l := 0) (b := k * 2 ^ c) dividend (by simpa using divisor)
      (Nat.mul_one _).symm shift long (by omega) short (by omega) (by omega)

end ClusterLedger
