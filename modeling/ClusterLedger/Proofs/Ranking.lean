import ClusterLedger.Proofs.Choice
import ClusterLedger.Proofs.Shares
/- The comparisons of the two calculators. Where every dimension of the cluster counts, they are those of
   ranks in a linear order. In a cluster without memory or cores the comparison has no ranks to show: two
   resources that are each more than the other in one dimension compare as equal there. -/
namespace ClusterLedger.Calculator

/-- The comparison is that of ranks, and what fits in a resource ranks no higher than it. -/
structure Ranks {α : Type} [LinearOrder α] (order : Resource → Resource → Ordering)
    (rank : Resource → α) : Prop where
  compares : ∀ a b, (order a b).Compares (rank a) (rank b)
  fits : ∀ {a b : Resource}, a.fitsIn b = true → rank a ≤ rank b

section Ranks
variable {α : Type} [LinearOrder α] {order : Resource → Resource → Ordering} {rank : Resource → α}
  {a b c : Resource}

theorem Ranks.at_most_iff (ranks : Ranks order rank) : order a b ≠ .gt ↔ rank a ≤ rank b :=
  (ranks.compares a b).ne_gt

theorem Ranks.swap (ranks : Ranks order rank) : order a b = (order b a).swap :=
  (ranks.compares a b).inj (ranks.compares b a).swap

theorem Ranks.trans (ranks : Ranks order rank) (first : order a b ≠ .gt) (second : order b c ≠ .gt) :
    order a c ≠ .gt :=
  ranks.at_most_iff.mpr ((ranks.at_most_iff.mp first).trans (ranks.at_most_iff.mp second))

theorem Ranks.total (ranks : Ranks order rank) : order a b ≠ .gt ∨ order b a ≠ .gt :=
  (le_total (rank a) (rank b)).imp ranks.at_most_iff.mpr ranks.at_most_iff.mpr

end Ranks

section Shares
variable {cluster r : Resource}

theorem compare_self (calculator : Calculator) (cluster r : Resource) :
    calculator.compare cluster r r = .eq := by
  cases calculator with
  | memoryOnly => exact Std.ReflOrd.compare_self (a := r.memoryMb)
  | dominant => exact if_pos rfl

theorem compare_divisible (memory : cluster.memoryMb ≠ 0) (cores : cluster.vcores ≠ 0)
    {a b : Resource} (apart : a ≠ b) :
    dominant.compare cluster a b = compareByShares cluster a b := by
  simp [compare, apart, isInvalidDivisor, memory, cores]

theorem shares_levels (memory : cluster.memoryMb ≠ 0) (cores : cluster.vcores ≠ 0) {u v : Level}
    (first : HasLevel (r.memoryMb.toFloat / cluster.memoryMb.toFloat) u)
    (second : HasLevel (r.vcores.toFloat / cluster.vcores.toFloat) v) :
    HasLevel (shares cluster r).1 (max u v) ∧ HasLevel (shares cluster r).2 (min u v) := by
  simp only [shares, beq_iff_eq, memory, cores, ↓reduceIte, ge_iff_le, second.le_iff first]
  split
  · rename_i less
    rw [max_eq_left less, min_eq_right less]
    exact ⟨first, second⟩
  · rename_i more
    have more := (not_le.mp more).le
    rw [max_eq_right more, min_eq_left more]
    exact ⟨second, first⟩

theorem compareByShares_compares {a b : Resource} {u u' v v' : Level}
    (larger : HasLevel (shares cluster a).1 u) (smaller : HasLevel (shares cluster a).2 u')
    (larger' : HasLevel (shares cluster b).1 v) (smaller' : HasLevel (shares cluster b).2 v') :
    (compareByShares cluster a b).Compares (toLex (u, u')) (toLex (v, v')) := by
  obtain ⟨o, told, compares⟩ := larger.compareShares larger'
  obtain ⟨o', told', compares'⟩ := smaller.compareShares smaller'
  have lexical : compareByShares cluster a b = o.then o' := by
    simp only [compareByShares, told, told']
    cases o <;> rfl
  rw [lexical]
  exact compares_then compares compares'

/-- In a cluster that has both dimensions the rank is the larger share, and then the smaller one. -/
theorem dominant_ranks (memory : cluster.memoryMb ≠ 0) (cores : cluster.vcores ≠ 0) :
    ∃ rank : Resource → Level ×ₗ Level, Ranks (dominant.compare cluster) rank := by
  have memoryUnit : 0 < cluster.memoryMb.toNat := (eq_zero_or_positive _).resolve_left memory
  have coresUnit : 0 < cluster.vcores.toUInt64.toNat := by
    have := UInt32.toNat_inj.not.mpr cores
    simp at this ⊢
    omega
  obtain ⟨level, mono, has⟩ := quotient_levels memoryUnit
  obtain ⟨level', mono', has'⟩ := quotient_levels coresUnit
  have levels : ∀ r, _ := fun r : Resource =>
    shares_levels memory cores (has r.memoryMb) (has' r.vcores.toUInt64)
  refine ⟨fun r => toLex (max (level r.memoryMb) (level' r.vcores.toUInt64),
    min (level r.memoryMb) (level' r.vcores.toUInt64)), fun a b => ?_, fun {a b} fits => ?_⟩
  · by_cases same : a = b
    · rw [same, compare_self]
      exact Eq.refl _
    · rw [compare_divisible memory cores same]
      exact compareByShares_compares (levels a).1 (levels a).2 (levels b).1 (levels b).2
  · have fits := Resource.fitsIn_iff.mp fits
    have first := mono a.memoryMb b.memoryMb (fits .memory)
    have second := mono' a.vcores.toUInt64 b.vcores.toUInt64 (fits .vcores)
    exact Prod.Lex.toLex_mono ⟨max_le_max first second, min_le_min first second⟩

end Shares

theorem compare_memory (x y : UInt64) : Ord.compare x y = Ord.compare x.toNat y.toNat := by
  change compareOfLessAndEq x y = compareOfLessAndEq x.toNat y.toNat
  simp only [compareOfLessAndEq, UInt64.lt_iff_toNat_lt, UInt64.toNat_inj]

theorem compare_cores (x y : UInt32) : Ord.compare x y = Ord.compare x.toNat y.toNat := by
  change compareOfLessAndEq x y = compareOfLessAndEq x.toNat y.toNat
  simp only [compareOfLessAndEq, UInt32.lt_iff_toNat_lt, UInt32.toNat_inj]

theorem memoryOnly_ranks (cluster : Resource) :
    Ranks (memoryOnly.compare cluster) fun r => r.amount .memory where
  compares a b := (compare_iff _ _).mp (compare_memory a.memoryMb b.memoryMb).symm
  fits fits := Resource.fitsIn_iff.mp fits .memory

section Dimensions
variable {a b : Resource}

theorem compareDimensions_swap (a b : Resource) :
    compareDimensions a b = (compareDimensions b a).swap := by
  unfold compareDimensions
  rw [Std.OrientedOrd.eq_swap (a := a.memoryMb), Std.OrientedOrd.eq_swap (a := a.vcores)]
  cases Ord.compare b.memoryMb a.memoryMb <;> cases Ord.compare b.vcores a.vcores <;> rfl

theorem compareDimensions_fits (fits : a.fitsIn b = true) : compareDimensions a b ≠ .gt := by
  have fits := Resource.fitsIn_iff.mp fits
  have memory : Ord.compare a.memoryMb b.memoryMb ≠ .gt := by
    rw [compare_memory]
    exact Nat.compare_ne_gt.mpr (fits .memory)
  have cores : Ord.compare a.vcores b.vcores ≠ .gt := by
    rw [compare_cores]
    exact Nat.compare_ne_gt.mpr (fits .vcores)
  unfold compareDimensions
  dsimp only
  split
  · exact memory
  · split
    · exact cores
    · simp

end Dimensions

theorem compare_degenerate {cluster : Resource} (lacks : cluster.memoryMb = 0 ∨ cluster.vcores = 0)
    {a b : Resource} (apart : a ≠ b) : dominant.compare cluster a b = compareDimensions a b := by
  simp [compare, apart, isInvalidDivisor, lacks]

/-- Both dimensions of the cluster count, or the one that does not is never looked at. -/
def Divides (calculator : Calculator) (cluster : Resource) : Prop :=
  calculator = .memoryOnly ∨ cluster.memoryMb ≠ 0 ∧ cluster.vcores ≠ 0

theorem Divides.ranked {calculator : Calculator} {cluster : Resource}
    (divides : calculator.Divides cluster) : ∃ (α : Type) (_ : LinearOrder α) (rank : Resource → α),
      Ranks (calculator.compare cluster) rank := by
  cases calculator with
  | memoryOnly => exact ⟨_, _, _, memoryOnly_ranks cluster⟩
  | dominant =>
    obtain ⟨memory, cores⟩ := divides.resolve_left (by simp)
    obtain ⟨rank, ranks⟩ := dominant_ranks memory cores
    exact ⟨_, _, rank, ranks⟩

theorem divides_or_degenerate (calculator : Calculator) (cluster : Resource) :
    calculator.Divides cluster ∨
      calculator = .dominant ∧ (cluster.memoryMb = 0 ∨ cluster.vcores = 0) := by
  cases calculator with
  | memoryOnly => exact .inl (.inl rfl)
  | dominant =>
    by_cases both : cluster.memoryMb ≠ 0 ∧ cluster.vcores ≠ 0
    · exact .inl (.inr both)
    · exact .inr ⟨rfl, by simpa only [not_and_or, not_not] using both⟩

section Laws
variable {calculator : Calculator} {cluster a b c : Resource}

theorem compare_swap (calculator : Calculator) (cluster a b : Resource) :
    calculator.compare cluster a b = (calculator.compare cluster b a).swap := by
  rcases divides_or_degenerate calculator cluster with divides | ⟨rfl, lacks⟩
  · obtain ⟨_, _, _, ranks⟩ := divides.ranked
    exact ranks.swap
  · by_cases same : a = b
    · rw [same, compare_self]
      rfl
    · rw [compare_degenerate lacks same, compare_degenerate lacks (Ne.symm same)]
      exact compareDimensions_swap a b

theorem atMost_iff : calculator.atMost cluster a b = true ↔ calculator.compare cluster a b ≠ .gt :=
  bne_iff_ne

theorem atMost_of_fits (fits : a.fitsIn b = true) : calculator.atMost cluster a b = true := by
  rw [atMost_iff]
  rcases divides_or_degenerate calculator cluster with divides | ⟨rfl, lacks⟩
  · obtain ⟨_, _, _, ranks⟩ := divides.ranked
    exact ranks.at_most_iff.mpr (ranks.fits fits)
  · by_cases same : a = b
    · simp [same, compare_self]
    · rw [compare_degenerate lacks same]
      exact compareDimensions_fits fits

theorem degenerate_not_transitive (lacks : cluster.memoryMb = 0 ∨ cluster.vcores = 0) :
    ∃ a b c, dominant.atMost cluster a b = true ∧ dominant.atMost cluster b c = true ∧
      dominant.atMost cluster a c = false := by
  refine ⟨⟨1, 3⟩, ⟨2, 1⟩, ⟨1, 2⟩, ?_⟩
  unfold atMost
  rw [compare_degenerate lacks (by decide), compare_degenerate lacks (by decide),
    compare_degenerate lacks (by decide)]
  decide

theorem Divides.preorder (divides : calculator.Divides cluster) :
    (∀ a b c, calculator.atMost cluster a b = true → calculator.atMost cluster b c = true →
      calculator.atMost cluster a c = true) ∧
    ∀ a b, calculator.atMost cluster a b = true ∨ calculator.atMost cluster b a = true := by
  obtain ⟨_, _, _, ranks⟩ := divides.ranked
  simp only [atMost_iff]
  exact ⟨fun _ _ _ => ranks.trans, fun _ _ => ranks.total⟩

end Laws

theorem not_skipped {w : World} {s : Attempt} {priority : Priority} {need cluster : Resource}
    {n : NodeId} {r : RecordId} (listed : (n, r) ∈ s.reservationsAt priority)
    (covers : need.fitsIn (w.record r).reservedResource = true) :
    ∃ m x, w.nodeToUnreserve s priority need cluster = some (m, x) ∧ ¬ n.bytes < m.bytes := by
  have enough : s.calculator.atMost cluster need (w.record r).reservedResource = true :=
    atMost_of_fits covers
  cases search : w.nodeToUnreserve s priority need cluster with
  | none => exact absurd enough (List.find?_eq_none.mp search (n, r) listed)
  | some hit =>
    obtain ⟨_, _, earlier⟩ := World.nodeToUnreserve_first.mp search
    refine ⟨hit.1, hit.2, rfl, fun before => ?_⟩
    rw [earlier n r listed before] at enough
    simp at enough

/-- The comparison turns around with its sides, in every cluster, and what fits in a resource is at most
    that. So a reservation that covers the need is not skipped. It is a total preorder where the cluster
    has both dimensions, and for memory alone in every cluster. -/
theorem order_laws (calculator : Calculator) (cluster : Resource) :
    (∀ a b, calculator.compare cluster a b = (calculator.compare cluster b a).swap) ∧
    (∀ a b : Resource, a.fitsIn b = true → calculator.atMost cluster a b = true) ∧
    (∀ (w : World) (s : Attempt) (priority : Priority) (need : Resource) (n : NodeId) (r : RecordId),
      (n, r) ∈ s.reservationsAt priority → need.fitsIn (w.record r).reservedResource = true →
      ∃ m x, w.nodeToUnreserve s priority need cluster = some (m, x) ∧ ¬ n.bytes < m.bytes) ∧
    (calculator = .memoryOnly ∨ cluster.memoryMb ≠ 0 ∧ cluster.vcores ≠ 0 →
      (∀ a b c, calculator.atMost cluster a b = true → calculator.atMost cluster b c = true →
        calculator.atMost cluster a c = true) ∧
      ∀ a b, calculator.atMost cluster a b = true ∨ calculator.atMost cluster b a = true) :=
  ⟨compare_swap calculator cluster, fun _ _ => atMost_of_fits,
    fun _ _ _ _ _ _ listed covers => not_skipped listed covers, Divides.preorder⟩

theorem order_laws_sample :
    let w := World.sample.after
      [.reserve ⟨"a"⟩ ⟨1⟩ ⟨"n1"⟩ none ⟨⟨"c1"⟩, ⟨"n1"⟩, ⟨4096, 2⟩, ⟨1⟩, false, none⟩]
    let cluster : Resource := ⟨16384, 16⟩
    dominant.atMost cluster ⟨1024, 1⟩ ⟨8192, 2⟩ = true ∧ ∃ s m x, w.attempts.get? ⟨"a"⟩ = some s ∧
      w.nodeToUnreserve s ⟨1⟩ ⟨2048, 2⟩ cluster = some (m, x) := by
  intro w cluster
  obtain ⟨_, fits, covered, preorder⟩ := order_laws dominant cluster
  have first := fits ⟨1024, 1⟩ ⟨4096, 2⟩ (by decide)
  have second := fits ⟨4096, 2⟩ ⟨8192, 2⟩ (by decide)
  have both := (preorder (.inr ⟨by decide, by decide⟩)).1 _ _ _ first second
  obtain ⟨s, found⟩ : ∃ s, w.attempts.get? ⟨"a"⟩ = some s := Option.isSome_iff_exists.mp (by decide)
  have listed : (⟨"n1"⟩, ⟨0⟩) ∈ s.reservationsAt ⟨1⟩ := by
    have stands : w.reservation? ⟨"a"⟩ ⟨⟨1⟩, ⟨"n1"⟩⟩ = some ⟨0⟩ := by decide
    simpa [Attempt.mem_reservationsAt, World.reservation?, found] using stands
  obtain ⟨m, x, search, _⟩ := covered w s ⟨1⟩ ⟨2048, 2⟩ _ _ listed (by decide)
  exact ⟨both, s, m, x, found, search⟩

end ClusterLedger.Calculator
