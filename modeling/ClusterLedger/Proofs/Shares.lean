import ClusterLedger.Proofs.Quotient
/- Quotients of whole numbers as binary64 numbers, by size. They are rounded twice, when the numbers
   are converted and when they are divided, and both times a larger dividend gives no smaller
   result. Nothing here is negative or overflows, and nothing fails to be a number. -/
namespace ClusterLedger
open Float.Model Float.Model.UnpackedFloat

abbrev Level := WithBot (ℤ ×ₗ ℕ)

/-- The float is zero, or a number whose mantissa fills its width, of this size. -/
inductive HasLevel (x : Float) : Level → Prop
  | zero {sign : Sign} (unpacks : x.toModel.unpack = .zero sign) : HasLevel x ⊥
  | normal {k : Nat} {e : Int} (reads : Reads x k e) : HasLevel x (toLex (e, k) : ℤ ×ₗ ℕ)

theorem Reads.unique {x : Float} {k k' : Nat} {e e' : Int} (first : Reads x k e)
    (second : Reads x k' e') : k = k' ∧ e = e' := by
  obtain ⟨_, unpack⟩ := first.unpacks
  obtain ⟨_, unpack'⟩ := second.unpacks
  rw [unpack] at unpack'
  cases unpack'
  exact ⟨rfl, rfl⟩

section Comparison
variable {α β : Type} [LinearOrder α] [LinearOrder β] {x y : Float} {u v : Level}

theorem compares_then {a a' : α} {b b' : β} {first second : Ordering} (one : first.Compares a a')
    (two : second.Compares b b') : (first.then second).Compares (toLex (a, b)) (toLex (a', b')) := by
  cases first with
  | lt => exact Prod.Lex.toLex_lt_toLex.mpr (.inl one)
  | gt => exact Prod.Lex.toLex_lt_toLex.mpr (.inl one)
  | eq =>
    obtain rfl : a = a' := one
    cases second with
    | lt => exact Prod.Lex.toLex_lt_toLex.mpr (.inr ⟨rfl, two⟩)
    | gt => exact Prod.Lex.toLex_lt_toLex.mpr (.inr ⟨rfl, two⟩)
    | eq => exact congrArg (fun b => toLex (a, b)) two

theorem HasLevel.compares (first : HasLevel x u) (second : HasLevel y v) :
    ∃ o, x.toModel.unpack.compare y.toModel.unpack = some o ∧ o.Compares u v := by
  cases first with
  | zero zero₁ =>
    cases second with
    | zero zero₂ => exact ⟨.eq, by rw [zero₁, zero₂]; rfl, rfl⟩
    | normal reads =>
      obtain ⟨_, unpack⟩ := reads.unpacks
      exact ⟨.lt, by rw [zero₁, unpack]; rfl, WithBot.bot_lt_coe _⟩
  | @normal k e reads =>
    obtain ⟨_, unpack₁⟩ := reads.unpacks
    cases second with
    | zero zero₂ => exact ⟨.gt, by rw [unpack₁, zero₂]; rfl, WithBot.bot_lt_coe _⟩
    | @normal k' e' reads' =>
      obtain ⟨_, unpack₂⟩ := reads'.unpacks
      refine ⟨(compare e e').then (compare k k'), by rw [unpack₁, unpack₂]; rfl, ?_⟩
      have sizes := compares_then ((compare_iff e e').mp rfl) ((compare_iff k k').mp rfl)
      generalize (compare e e').then (compare k k') = o at sizes
      cases o with
      | lt => exact WithBot.coe_lt_coe.mpr sizes
      | gt => exact WithBot.coe_lt_coe.mpr sizes
      | eq => exact congrArg WithBot.some sizes

theorem HasLevel.lt_iff (first : HasLevel x u) (second : HasLevel y v) : x < y ↔ u < v := by
  obtain ⟨o, told, compares⟩ := first.compares second
  rw [lt_iff_unpacked, UnpackedFloat.lt, told, ← compares.eq_lt]
  simp

theorem HasLevel.le_iff (first : HasLevel x u) (second : HasLevel y v) : x ≤ y ↔ u ≤ v := by
  obtain ⟨o, told, compares⟩ := first.compares second
  have unpacked : x ≤ y ↔ x.toModel.unpack.le y.toModel.unpack = true := by
    change decide (x.toModel ≤ y.toModel) = true ↔ _
    rw [decide_eq_true_iff]
    rfl
  rw [unpacked, UnpackedFloat.le, told, ← compares.ne_gt]
  cases o <;> simp

theorem HasLevel.eq_iff (first : HasLevel x u) (second : HasLevel y v) : x == y ↔ u = v := by
  obtain ⟨o, told, compares⟩ := first.compares second
  change (x.toModel.unpack.compare y.toModel.unpack == some .eq) = true ↔ _
  rw [told, ← compares.eq_eq]
  simp

theorem HasLevel.compareShares (first : HasLevel x u) (second : HasLevel y v) :
    ∃ o, Calculator.compareShares x y = some o ∧ o.Compares u v := by
  unfold Calculator.compareShares
  simp only [first.lt_iff second, first.eq_iff second, second.lt_iff first]
  rcases lt_trichotomy u v with less | same | more
  · exact ⟨.lt, by simp [less], less⟩
  · exact ⟨.eq, by simp [same], same⟩
  · exact ⟨.gt, by simp [more, more.not_gt, more.ne'], more⟩

end Comparison

/-- A quotient is rounded, in units of a power of two that bring it to the width of a mantissa, to
    this mantissa and exponent. -/
structure Rounds (num den : Nat) (unit : Int) (k : Nat) (e : Int) : Prop where
  carry : ∃ i : Nat, i ≤ 1 ∧ e = unit + i ∧ 2 * (k * 2 ^ i * den) ≤ 2 * num + den ∧
    2 * num ≤ 2 * (k * 2 ^ i * den) + den
  low : 2 ^ 52 ≤ k
  high : k < 2 ^ 53
  positive : 0 < den
  narrow : num < 2 ^ 53 * den

section Rounding
variable {num den num' den' k k' : Nat} {unit unit' e e' : Int}

theorem nearest_mono {r r' : Nat} (above : 2 * (r * den) ≤ 2 * num + den)
    (below : 2 * num' ≤ 2 * (r' * den') + den') (less : num * den' < num' * den) : r ≤ r' := by
  by_contra more
  have step : (r' + 1) * den ≤ r * den := Nat.mul_le_mul_right den (by omega)
  have lower : (2 * r' + 1) * den ≤ 2 * num := by linarith
  have upper : 2 * num' ≤ (2 * r' + 1) * den' := by linarith
  have left := Nat.mul_le_mul_right den' lower
  have right := Nat.mul_le_mul_right den upper
  have same : (2 * r' + 1) * den * den' = (2 * r' + 1) * den' * den := Nat.mul_right_comm _ _ _
  linarith

theorem Rounds.mono (first : Rounds num den unit k e) (second : Rounds num' den' unit' k' e')
    (order : unit < unit' ∨ unit = unit' ∧ num * den' < num' * den) :
    toLex (e, k) ≤ toLex (e', k') := by
  obtain ⟨i, once, rfl, above, _⟩ := first.carry
  obtain ⟨i', once', rfl, _, below⟩ := second.carry
  have low := first.low
  have high := first.high
  have low' := second.low
  have high' := second.high
  -- A carry fills the mantissa, so what is rounded up to the next unit is the least number there.
  have full : k * 2 ^ i ≤ 2 ^ 53 := by
    by_contra more
    have step : (2 ^ 53 + 1) * den ≤ k * 2 ^ i * den := Nat.mul_le_mul_right den (by omega)
    have narrow := first.narrow
    have positive := first.positive
    linarith
  rw [Prod.Lex.toLex_le_toLex]
  rcases order with apart | ⟨rfl, less⟩
  · obtain rfl | rfl : i = 0 ∨ i = 1 := by omega
    · left
      simp only
      omega
    · simp only
      omega
  · have rounded := nearest_mono above below less
    obtain rfl | rfl : i = 0 ∨ i = 1 := by omega
    all_goals
      obtain rfl | rfl : i' = 0 ∨ i' = 1 := by omega
      all_goals
        simp only [true_and]
        omega

end Rounding

/-- The length of a whole number tells the unit in which it is rounded. -/
theorem toFloat_rounded {n : UInt64} (nonzero : 0 < n.toNat) : ∃ (k j s : Nat) (e : Int),
    Reads n.toFloat k e ∧ Rounds (n.toNat * 2 ^ j) (2 ^ s) (s - j) k e ∧
      n.toNat.log2 + j = 52 + s ∧ (j = 0 ∨ s = 0) ∧ -52 ≤ e ∧ e ≤ 12 := by
  obtain ⟨k, j, s, i, reads, filled, one, narrow, above, below⟩ := toFloat_rounds nonzero
  have positive : n.toNat ≠ 0 := by omega
  have bound : n.toNat.log2 < 64 := (Nat.log2_lt positive).mpr n.toNat_lt
  have width := (log2_mul_two_pow positive j).symm.trans filled
  have fits : n.toNat * 2 ^ j < 2 ^ 53 * 2 ^ s := by
    have high := (Nat.log2_lt (by positivity)).mp (Nat.lt_succ_of_le filled.le)
    rwa [Nat.succ_eq_add_one, show 52 + s + 1 = 53 + s by omega, Nat.pow_add] at high
  refine ⟨k, j, s, _, reads, ⟨⟨i, narrow, by omega, above, below⟩, reads.low, reads.high,
    Nat.two_pow_pos s, fits⟩, width, one, by omega, by omega⟩

theorem eq_zero_or_positive (n : UInt64) : n = 0 ∨ 0 < n.toNat := by
  rcases Nat.eq_zero_or_pos n.toNat with zero | positive
  · exact .inl (UInt64.toNat_inj.mp zero)
  · exact .inr positive

section Quotients
variable {x y d : Float} {k k' l : Nat} {e e' f : Int}

theorem toFloat_mono {n m : UInt64} (order : n.toNat < m.toNat) (first : Reads n.toFloat k e)
    (second : Reads m.toFloat k' e') (nonzero : 0 < n.toNat) : toLex (e, k) ≤ toLex (e', k') := by
  obtain ⟨_, j, s, _, reads, rounds, width, one, _⟩ := toFloat_rounded nonzero
  obtain ⟨_, j', s', _, reads', rounds', width', one', _⟩ := toFloat_rounded (nonzero.trans order)
  obtain ⟨rfl, rfl⟩ := first.unique reads
  obtain ⟨rfl, rfl⟩ := second.unique reads'
  have longer : n.toNat.log2 ≤ m.toNat.log2 :=
    (Nat.le_log2 (by omega)).mpr ((Nat.log2_self_le (by omega)).trans order.le)
  refine rounds.mono rounds' ?_
  rcases Nat.lt_or_eq_of_le longer with apart | same
  · left
    omega
  · right
    obtain rfl : j = j' := by omega
    obtain rfl : s = s' := by omega
    exact ⟨rfl, Nat.mul_lt_mul_of_pos_right (Nat.mul_lt_mul_of_pos_right order (Nat.two_pow_pos j))
      (Nat.two_pow_pos s)⟩

theorem div_rounded (first : Reads x k e) (divisor : Reads d l f) (above : -900 ≤ e - f)
    (below : e - f ≤ 900) : ∃ (q s : Nat) (g : Int), Reads (x / d) q g ∧
      Rounds (k * 2 ^ 53) (l * 2 ^ s) (e - f - 53 + s) q g ∧ s ≤ 1 ∧ l * 2 ^ s ≤ 2 * k ∧
      k < l * 2 ^ s := by
  obtain ⟨q, s, i, reads, narrow, once, filled, short, near⟩ := div_reads first divisor above below
  have positive : 0 < l * 2 ^ s := Nat.mul_pos (by have := divisor.low; omega) (Nat.two_pow_pos s)
  refine ⟨q, s, _, reads, ⟨⟨i, once, rfl, near⟩, reads.low, reads.high, positive, ?_⟩, narrow,
    by omega, short⟩
  rw [Nat.mul_comm]
  exact Nat.mul_lt_mul_of_pos_left short (by norm_num)

theorem div_rounded_mono (first : Reads x k e) (second : Reads y k' e') (divisor : Reads d l f)
    (above : -900 ≤ e - f ∧ -900 ≤ e' - f) (below : e - f ≤ 900 ∧ e' - f ≤ 900)
    (order : toLex (e, k) < toLex (e', k')) {q q' : Nat} {g g' : Int} (quotient : Reads (x / d) q g)
    (quotient' : Reads (y / d) q' g') : toLex (g, q) ≤ toLex (g', q') := by
  obtain ⟨_, s, _, reads, rounds, narrow, filled, short⟩ :=
    div_rounded first divisor above.1 below.1
  obtain ⟨_, s', _, reads', rounds', narrow', filled', short'⟩ :=
    div_rounded second divisor above.2 below.2
  obtain ⟨rfl, rfl⟩ := quotient.unique reads
  obtain ⟨rfl, rfl⟩ := quotient'.unique reads'
  refine rounds.mono rounds' ?_
  have high := first.high
  have low' := second.low
  rw [Prod.Lex.toLex_lt_toLex] at order
  simp only at order
  rcases order with apart | ⟨rfl, less⟩
  · by_cases finer : e + s < e' + s'
    · left
      omega
    · -- The binades of the dividends are next to each other, and the quotients share one.
      obtain rfl : s = 1 := by omega
      obtain rfl : s' = 0 := by omega
      refine .inr ⟨by omega, ?_⟩
      have double : k * l < 2 * k' * l := Nat.mul_lt_mul_of_pos_right (by omega) (by omega)
      linarith
  · by_cases finer : s < s'
    · left
      omega
    · obtain rfl : s = s' := by
        obtain rfl | rfl : s = 0 ∨ s = 1 := by omega
        all_goals
          obtain rfl | rfl : s' = 0 ∨ s' = 1 := by omega
          all_goals omega
      refine .inr ⟨rfl, ?_⟩
      have wide : 0 < 2 ^ 53 * (l * 2 ^ s) := Nat.mul_pos (by norm_num) rounds.positive
      have scaled := Nat.mul_lt_mul_of_pos_right less wide
      linarith

theorem div_congr (same : x.toModel.unpack = y.toModel.unpack) : x / d = y / d := by
  change (⟨Float.Model.pack (UnpackedFloat.div Format.binary64 x.toModel.unpack d.toModel.unpack)⟩ :
    Float) = ⟨Float.Model.pack (UnpackedFloat.div Format.binary64 y.toModel.unpack d.toModel.unpack)⟩
  rw [same]

theorem Reads.same_unpack (first : Reads x k e) (second : Reads y k e) :
    x.toModel.unpack = y.toModel.unpack := by
  obtain ⟨_, unpack⟩ := first.unpacks
  obtain ⟨_, unpack'⟩ := second.unpacks
  rw [unpack, unpack']

theorem zero_div_level (divisor : Reads d l f) : HasLevel ((0 : UInt64).toFloat / d) ⊥ := by
  obtain ⟨positive, unpack⟩ := divisor.unpacks
  have nothing : UnpackedFloat.div Format.binary64 (.zero .positive) d.toModel.unpack =
      .zero .positive := by
    rw [unpack]
    rfl
  refine @HasLevel.zero _ .positive ?_
  change (Float.Model.pack (UnpackedFloat.div Format.binary64 (.zero .positive)
    d.toModel.unpack)).unpack = .zero .positive
  rw [nothing]
  rfl

theorem HasLevel.unique {u v : Level} (first : HasLevel x u) (second : HasLevel x v) : u = v := by
  obtain ⟨o, told, compares⟩ := first.compares first
  obtain ⟨o', told', compares'⟩ := first.compares second
  obtain rfl : o = o' := Option.some.inj (told.symm.trans told')
  obtain rfl : o = .eq := compares.inj (show Ordering.eq.Compares u u from rfl)
  exact compares'

variable {n m b : UInt64}

theorem quotient_level (unit : 0 < b.toNat) : ∃ u, HasLevel (n.toFloat / b.toFloat) u := by
  obtain ⟨_, _, _, _, divisor, _, _, _, least, most⟩ := toFloat_rounded unit
  obtain rfl | positive := eq_zero_or_positive n
  · exact ⟨⊥, zero_div_level divisor⟩
  · obtain ⟨_, _, _, _, dividend, _, _, _, least', most'⟩ := toFloat_rounded positive
    obtain ⟨_, _, _, reads, _⟩ := div_rounded dividend divisor (by omega) (by omega)
    exact ⟨_, .normal reads⟩

theorem quotient_level_mono (unit : 0 < b.toNat) (order : n.toNat ≤ m.toNat) {u v : Level}
    (first : HasLevel (n.toFloat / b.toFloat) u) (second : HasLevel (m.toFloat / b.toFloat) v) :
    u ≤ v := by
  obtain ⟨_, _, _, _, divisor, _, _, _, least, most⟩ := toFloat_rounded unit
  obtain rfl | positive := eq_zero_or_positive n
  · rw [first.unique (zero_div_level divisor)]
    exact bot_le
  rcases Nat.eq_or_lt_of_le order with same | less
  · obtain rfl : n = m := UInt64.toNat_inj.mp same
    exact (first.unique second).le
  obtain ⟨k, _, _, e, dividend, _, _, _, least', most'⟩ := toFloat_rounded positive
  obtain ⟨k', _, _, e', dividend', _, _, _, least'', most''⟩ :=
    toFloat_rounded (positive.trans less)
  obtain ⟨_, _, _, quotient, _⟩ := div_rounded dividend divisor (by omega) (by omega)
  obtain ⟨_, _, _, quotient', _⟩ := div_rounded dividend' divisor (by omega) (by omega)
  rcases (toFloat_mono less dividend dividend' positive).eq_or_lt with same | apart
  · obtain ⟨rfl, rfl⟩ := Prod.mk.inj same
    exact (first.unique (div_congr (dividend.same_unpack dividend') ▸ second)).le
  · rw [first.unique (.normal quotient), second.unique (.normal quotient')]
    exact WithBot.coe_le_coe.mpr (div_rounded_mono dividend dividend' divisor (by omega) (by omega)
      apart quotient quotient')

theorem quotient_levels (unit : 0 < b.toNat) : ∃ level : UInt64 → Level,
    (∀ n m, n.toNat ≤ m.toNat → level n ≤ level m) ∧
      ∀ n, HasLevel (n.toFloat / b.toFloat) (level n) := by
  choose level has using fun n => quotient_level (n := n) unit
  exact ⟨level, fun n m order => quotient_level_mono unit order (has n) (has m), has⟩

end Quotients
end ClusterLedger
