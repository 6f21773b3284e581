import ClusterLedger.Proofs.Seconds
/- Which stretches of time an accrual has charged, and which report it has on hand. A history lists
   calls with the latest first, so that what came before a call is the rest of the list. Sums are
   floating-point numbers and are told charge by charge, in the order in which they were made. -/
namespace ClusterLedger.Accrual

inductive Call
  | accrue (now : Nat) (used : Resource)
  | report (now refresh : Nat) (used : Resource)
  | check (now refresh : Nat)
  | invalidate
deriving DecidableEq, Repr

def call (a : Accrual) : Call → Accrual
  | .accrue now used => a.charge now used
  | .report now refresh used => a.refreshed now refresh used
  | .check _ _ => a
  | .invalidate => a.invalidate

def Call.time? : Call → Option Nat
  | .accrue now _ => some now
  | .report now _ _ => some now
  | .check now _ => some now
  | .invalidate => none

def after (t₀ : Nat) (past : List Call) : Accrual := past.foldr (fun c a => a.call c) (start t₀)

/-- No clock reading is before an earlier one, nor before the start. -/
def Timely (t₀ : Nat) (past : List Call) : Prop :=
  (past.filterMap Call.time? ++ [t₀]).Pairwise (· ≥ ·)

instance (t₀ : Nat) (past : List Call) : Decidable (Timely t₀ past) :=
  inferInstanceAs (Decidable (List.Pairwise _ _))

def due (computed : Option Nat) (now refresh : Nat) : Bool :=
  computed.all fun before => refresh ≤ now - before

def computed? : List Call → Option Nat
  | [] => none
  | .report now refresh _ :: past =>
    if due (computed? past) now refresh then some now else computed? past
  | .invalidate :: _ => none
  | _ :: past => computed? past

def computes (past : List Call) : Call → Bool
  | .report now refresh _ => due (computed? past) now refresh
  | _ => false

structure Charge where
  since : Nat
  stop : Nat
  used : Resource
deriving DecidableEq, Repr

namespace Charge

def memory (c : Charge) : Float := c.used.memoryMb.toFloat * secondsOf (c.stop - c.since)
def vcores (c : Charge) : Float := c.used.vcores.toFloat * secondsOf (c.stop - c.since)

def covers (c : Charge) (t : Nat) : Bool := c.since ≤ t ∧ t < c.stop

end Charge

def lastStop (t₀ : Nat) : List Charge → Nat
  | [] => t₀
  | c :: _ => c.stop

/-- Every accrual and every computed report charges what has passed since the charge before it. -/
def charges (t₀ : Nat) : List Call → List Charge
  | [] => []
  | .accrue now used :: past => ⟨lastStop t₀ (charges t₀ past), now, used⟩ :: charges t₀ past
  | .report now refresh used :: past =>
    if due (computed? past) now refresh then
      ⟨lastStop t₀ (charges t₀ past), now, used⟩ :: charges t₀ past
    else charges t₀ past
  | _ :: past => charges t₀ past

inductive Latest : List Call → List Call → Prop
  | here {c past} : computes past c = true → Latest (c :: past) (c :: past)
  | before {c past origin} : computes past c = false → Latest past origin →
      Latest (c :: past) origin

def whole (a : Accrual) : UInt64 × UInt64 := (a.memorySeconds.toUInt64, a.vcoreSeconds.toUInt64)

section History
variable {t₀ : Nat} {past : List Call}

theorem isCurrent_eq (a : Accrual) (now refresh : Nat) :
    a.isCurrent now refresh = !due a.computedAt now refresh := by
  unfold isCurrent due
  cases a.computedAt with
  | none => rfl
  | some before => simp only [Option.any_some, Option.all_some, ← Nat.not_le, decide_not]

theorem charges_report (now refresh : Nat) (used : Resource) :
    charges t₀ (.report now refresh used :: past) =
      if due (computed? past) now refresh then charges t₀ (.accrue now used :: past)
      else charges t₀ past := rfl

theorem computed?_report (now refresh : Nat) (used : Resource) :
    computed? (.report now refresh used :: past) =
      if due (computed? past) now refresh then some now else computed? past := rfl

theorem refreshed_due {a : Accrual} {now refresh : Nat} (used : Resource)
    (again : due a.computedAt now refresh = true) :
    a.refreshed now refresh used =
      { a.charge now used with computedAt := some now, report := (a.charge now used).whole } := by
  simp [refreshed, isCurrent_eq, again, whole]

theorem refreshed_current {a : Accrual} {now refresh : Nat} (used : Resource)
    (still : due a.computedAt now refresh = false) : a.refreshed now refresh used = a := by
  simp [refreshed, isCurrent_eq, still]

structure MatchesHistory (a : Accrual) (t₀ : Nat) (past : List Call) : Prop where
  memory : a.memorySeconds = (charges t₀ past).foldr (fun c sum => sum + c.memory) 0.0
  vcores : a.vcoreSeconds = (charges t₀ past).foldr (fun c sum => sum + c.vcores) 0.0
  lastCharge : a.lastCharge = lastStop t₀ (charges t₀ past)
  computedAt : a.computedAt = computed? past

theorem MatchesHistory.charge {a : Accrual} (matched : a.MatchesHistory t₀ past) (now : Nat)
    (used : Resource) : (a.charge now used).MatchesHistory t₀ (.accrue now used :: past) where
  memory := by
    simp [Accrual.charge, charges, Charge.memory, matched.memory, matched.lastCharge]
  vcores := by
    simp [Accrual.charge, charges, Charge.vcores, matched.vcores, matched.lastCharge]
  lastCharge := rfl
  computedAt := matched.computedAt

theorem MatchesHistory.call {a : Accrual} (matched : a.MatchesHistory t₀ past) (c : Call) :
    (a.call c).MatchesHistory t₀ (c :: past) := by
  cases c with
  | accrue now used => exact matched.charge now used
  | report now refresh used =>
    have charged := matched.charge now used
    cases again : due (computed? past) now refresh with
    | true =>
      have sums : charges t₀ (.report now refresh used :: past) =
          charges t₀ (.accrue now used :: past) := by
        simp [charges_report, again]
      have state : a.call (.report now refresh used) = _ :=
        refreshed_due used (matched.computedAt ▸ again)
      rw [state]
      exact ⟨sums ▸ charged.memory, sums ▸ charged.vcores, sums ▸ charged.lastCharge,
        by simp [computed?_report, again]⟩
    | false =>
      have sums : charges t₀ (.report now refresh used :: past) = charges t₀ past := by
        simp [charges_report, again]
      have same_time : computed? (.report now refresh used :: past) = computed? past := by
        simp [computed?_report, again]
      have state : a.call (.report now refresh used) = a :=
        refreshed_current used (matched.computedAt ▸ again)
      rw [state]
      exact ⟨sums ▸ matched.memory, sums ▸ matched.vcores, sums ▸ matched.lastCharge,
        same_time ▸ matched.computedAt⟩
  | check now refresh => exact ⟨matched.memory, matched.vcores, matched.lastCharge, matched.computedAt⟩
  | invalidate => exact ⟨matched.memory, matched.vcores, matched.lastCharge, rfl⟩

theorem after_matches (t₀ : Nat) (past : List Call) : (after t₀ past).MatchesHistory t₀ past := by
  induction past with
  | nil => exact ⟨rfl, rfl, rfl, rfl⟩
  | cons c past ih => exact ih.call c

theorem lastStop_read (t₀ : Nat) (past : List Call) :
    lastStop t₀ (charges t₀ past) ∈ past.filterMap Call.time? ++ [t₀] := by
  induction past with
  | nil => exact List.mem_cons_self
  | cons c past ih =>
    cases c with
    | accrue now used => exact List.mem_cons_self
    | report now refresh used =>
      rw [charges_report,
        List.filterMap_cons_some (rfl : Call.time? (.report now refresh used) = some now)]
      split
      · exact List.mem_cons_self
      · exact List.mem_cons_of_mem _ ih
    | check now refresh => exact List.mem_cons_of_mem _ ih
    | invalidate => exact ih

theorem Timely.tail {c : Call} (timely : Timely t₀ (c :: past)) : Timely t₀ past := by
  cases c with
  | accrue now used => exact (List.pairwise_cons.mp timely).2
  | report now refresh used => exact (List.pairwise_cons.mp timely).2
  | check now refresh => exact (List.pairwise_cons.mp timely).2
  | invalidate => exact timely

theorem Timely.from_start (timely : Timely t₀ past) : t₀ ≤ lastStop t₀ (charges t₀ past) := by
  rcases List.mem_append.mp (lastStop_read t₀ past) with read | start
  · exact (List.pairwise_append.mp timely).2.2 _ read t₀ (by simp)
  · exact Nat.le_of_eq (List.mem_singleton.mp start).symm

theorem Timely.not_before {c : Call} {now : Nat} (timely : Timely t₀ (c :: past))
    (read : c.time? = some now) : lastStop t₀ (charges t₀ past) ≤ now := by
  rw [Timely, List.filterMap_cons_some read] at timely
  exact (List.pairwise_cons.mp timely).1 _ (lastStop_read t₀ past)

theorem Timely.ordered (timely : Timely t₀ past) : ∀ c ∈ charges t₀ past, c.since ≤ c.stop := by
  induction past with
  | nil => exact List.forall_mem_nil _
  | cons c past ih =>
    have before := ih timely.tail
    cases c with
    | accrue now used => exact List.forall_mem_cons.mpr ⟨timely.not_before rfl, before⟩
    | report now refresh used =>
      rw [charges_report]
      split
      · exact List.forall_mem_cons.mpr ⟨timely.not_before rfl, before⟩
      · exact before
    | check now refresh => exact before
    | invalidate => exact before

theorem covered_once {l : List Charge} {now t : Nat} (used : Resource)
    (before : l.countP (·.covers t) = if t₀ ≤ t ∧ t < lastStop t₀ l then 1 else 0)
    (started : t₀ ≤ lastStop t₀ l) (later : lastStop t₀ l ≤ now) :
    (⟨lastStop t₀ l, now, used⟩ :: l : List Charge).countP (·.covers t) =
      if t₀ ≤ t ∧ t < now then 1 else 0 := by
  rw [List.countP_cons, before]
  simp only [Charge.covers, decide_eq_true_eq]
  split <;> split <;> split <;> omega

theorem charged_once (timely : Timely t₀ past) (t : Nat) :
    (charges t₀ past).countP (·.covers t) =
      if t₀ ≤ t ∧ t < lastStop t₀ (charges t₀ past) then 1 else 0 := by
  induction past with
  | nil =>
    have none : ¬ (t₀ ≤ t ∧ t < t₀) := by omega
    exact (if_neg none).symm
  | cons c past ih =>
    have before := ih timely.tail
    have started := timely.tail.from_start
    cases c with
    | accrue now used => exact covered_once used before started (timely.not_before rfl)
    | report now refresh used =>
      have later := timely.not_before rfl
      rw [charges_report]
      split
      · exact covered_once used before started later
      · exact before
    | check now refresh => exact before
    | invalidate => exact before

theorem report_latest {origin : List Call} (latest : Latest past origin) :
    (after t₀ past).report = (after t₀ origin).whole := by
  induction latest with
  | @here c past computed =>
    cases c with
    | report now refresh used =>
      have state : after t₀ (.report now refresh used :: past) = _ :=
        refreshed_due used ((after_matches t₀ past).computedAt ▸ computed)
      rw [state]
      rfl
    | _ => simp [computes] at computed
  | @before c past origin kept _ ih =>
    cases c with
    | report now refresh used =>
      have state : after t₀ (.report now refresh used :: past) = after t₀ past :=
        refreshed_current used ((after_matches t₀ past).computedAt ▸ kept)
      rw [state]
      exact ih
    | _ => exact ih

theorem Latest.unique {origin origin' : List Call} (latest : Latest past origin)
    (latest' : Latest past origin') : origin = origin' := by
  induction latest with
  | here computed =>
    cases latest' with
    | here => rfl
    | before idle => simp [idle] at computed
  | before idle _ ih =>
    cases latest' with
    | here computed => simp [idle] at computed
    | before _ earlier => exact ih earlier

theorem computed_latest {before : Nat} (computed : computed? past = some before) :
    ∃ refresh used earlier, Latest past (.report before refresh used :: earlier) := by
  induction past with
  | nil => cases computed
  | cons c past ih =>
    cases c with
    | accrue now used =>
      obtain ⟨refresh, used, earlier, latest⟩ := ih computed
      exact ⟨refresh, used, earlier, .before rfl latest⟩
    | report now refresh used =>
      rw [computed?_report] at computed
      split at computed
      · rename_i again
        obtain rfl := Option.some.inj computed
        exact ⟨refresh, used, past, .here again⟩
      · rename_i still
        obtain ⟨refresh', used', earlier, latest⟩ := ih computed
        exact ⟨refresh', used', earlier, .before (eq_false_of_ne_true still) latest⟩
    | check now refresh =>
      obtain ⟨refresh, used, earlier, latest⟩ := ih computed
      exact ⟨refresh, used, earlier, .before rfl latest⟩
    | invalidate => cases computed

/-- However accruals, reports, questions and invalidations follow on one another: the sums are those
    of the charges, each for the seconds of its span, and these spans cover the time from the start
    to the last charge once. A report is computed where it is due, and charges then; else it is the
    latest one, and nothing changes. -/
theorem charges_tile (timely : Timely t₀ past) :
    let a := after t₀ past
    a.MatchesHistory t₀ past ∧
    (∀ c ∈ charges t₀ past, c.since ≤ c.stop ∧
      ∃ seconds, InSeconds seconds (c.stop - c.since) ∧
        c.memory = c.used.memoryMb.toFloat * seconds ∧
        c.vcores = c.used.vcores.toFloat * seconds) ∧
    (∀ t, (charges t₀ past).countP (·.covers t) =
      if t₀ ≤ t ∧ t < lastStop t₀ (charges t₀ past) then 1 else 0) ∧
    ∀ now refresh used,
      a.isCurrent now refresh = !due (computed? past) now refresh ∧
      (due (computed? past) now refresh = true → a.refreshed now refresh used =
        { a.charge now used with
          computedAt := some now, report := (a.charge now used).whole }) ∧
      (due (computed? past) now refresh = false → a.refreshed now refresh used = a ∧
        ∃ before since asked earlier, computed? past = some before ∧
          Latest past (.report before since asked :: earlier) ∧
          a.report = (after t₀ (.report before since asked :: earlier)).whole) := by
  intro a
  have matched := after_matches t₀ past
  refine ⟨matched, fun c charged => ?_, charged_once timely,
    fun now refresh used => ⟨?_, fun again => refreshed_due used (matched.computedAt ▸ again), ?_⟩⟩
  · exact ⟨timely.ordered c charged, secondsOf (c.stop - c.since), secondsOf_inSeconds _, rfl, rfl⟩
  · rw [isCurrent_eq, matched.computedAt]
  · intro still
    refine ⟨refreshed_current used (matched.computedAt ▸ still), ?_⟩
    cases computed : computed? past with
    | none => simp [computed, due] at still
    | some before =>
      obtain ⟨since, asked, earlier, latest⟩ := computed_latest computed
      exact ⟨before, since, asked, earlier, rfl, latest, report_latest latest⟩

end History

/-- In half seconds: one and a half of <1024,2> and a half of <1000,1> give the report at 6. It serves
    at 7, though a half of <100,1> was charged by then, and at 8 another half of <7,7> is charged. -/
theorem charges_tile_sample :
    let half := 500000000
    let earlier : List Call := [.invalidate, .accrue (5 * half) ⟨1024, 2⟩]
    let reported : List Call := .report (6 * half) (2 * half) ⟨1000, 1⟩ :: earlier
    let past : List Call :=
      .accrue (7 * half) ⟨100, 1⟩ :: .check (7 * half) (2 * half) :: reported
    let charged : List Charge := [⟨6 * half, 7 * half, ⟨100, 1⟩⟩, ⟨5 * half, 6 * half, ⟨1000, 1⟩⟩,
      ⟨2 * half, 5 * half, ⟨1024, 2⟩⟩]
    Timely (2 * half) past ∧ charges (2 * half) past = charged ∧
      charged.map (·.memory) = [50.0, 500.0, 1536.0] ∧
      charged.countP (·.covers (13 * half / 2)) = 1 ∧
      ((after (2 * half) past).refreshed (7 * half) (2 * half) ⟨7, 7⟩).report = (2036, 3) ∧
      ((after (2 * half) past).refreshed (8 * half) (2 * half) ⟨7, 7⟩).report = (2089, 7) := by
  intro half earlier reported past charged
  have timely : Timely (2 * half) past := by decide
  have tiles : charges (2 * half) past = charged := by decide
  obtain ⟨_, _, once, reports⟩ := charges_tile timely
  obtain ⟨same, before, since, asked, origin, computed, latest, report⟩ :=
    (reports (7 * half) (2 * half) ⟨7, 7⟩).2.2 (by decide)
  have there : (.report before since asked :: origin : List Call) = reported :=
    latest.unique (.before rfl (.before rfl (.here rfl)))
  refine ⟨timely, tiles, by decide +kernel, tiles ▸ (once _).trans (by decide), ?_, ?_⟩
  · rw [same, report, there]
    decide +kernel
  · rw [(reports (8 * half) (2 * half) ⟨7, 7⟩).2.1 (by decide)]
    decide +kernel

end ClusterLedger.Accrual
