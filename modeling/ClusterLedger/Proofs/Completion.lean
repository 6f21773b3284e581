import ClusterLedger.Proofs.Mirror
/- What a completion takes off the figures. Callers name the partition, and they read it off the
   record in a step of its own, so it can be another one by the time the container ends. -/
namespace ClusterLedger

namespace Usage

structure Frees (u u' : Usage) (r : Record) : Prop where
  used : ∀ p d, (u'.get .used p).amount d +
    (if p = r.partition then r.resource.amount d else 0) = (u.get .used p).amount d
  amUsed : ∀ p d, (u'.get .amUsed p).amount d +
    (if r.isMaster ∧ p = r.partition then r.resource.amount d else 0) = (u.get .amUsed p).amount d

variable {u : Usage} {r : Record} {p : Partition}

theorem leave_used (u : Usage) (r : Record) (p x : Partition) (d : Dimension) :
    ((u.leave p r).get .used x).amount d =
      (u.get .used x).amount d - if x = p then r.resource.amount d else 0 := by
  have used : ((u.decrease .used p r.resource).get .used x).amount d =
      (u.get .used x).amount d - if x = p then r.resource.amount d else 0 := by
    rw [get_decrease]
    split <;> simp_all [Resource.amount_sub]
  rw [← used, leave]
  split
  · simp [get_decrease]
  · rfl

theorem leave_amUsed (u : Usage) (r : Record) (p x : Partition) (d : Dimension) :
    ((u.leave p r).get .amUsed x).amount d =
      (u.get .amUsed x).amount d - if r.isMaster ∧ x = p then r.resource.amount d else 0 := by
  rw [leave]
  split
  · rename_i master
    simp only [get_decrease, master, true_and, reduceCtorEq, false_and, ↓reduceIte]
    split <;> simp_all [Resource.amount_sub]
  · rename_i worker
    simp [get_decrease, worker]

theorem leave_frees (own : p = r.partition ∨ r.resource = .zero)
    (used : ∀ d, r.resource.amount d ≤ (u.get .used r.partition).amount d)
    (amUsed : r.isMaster → ∀ d, r.resource.amount d ≤ (u.get .amUsed r.partition).amount d) :
    u.Frees (u.leave p r) r := by
  constructor
  · intro x d
    rw [leave_used]
    rcases own with rfl | nothing
    · have within := used d
      by_cases here : x = r.partition
      · subst here
        simp only [↓reduceIte]
        omega
      · simp [here]
    · simp [nothing]
  · intro x d
    rw [leave_amUsed]
    rcases own with rfl | nothing
    · by_cases here : r.isMaster ∧ x = r.partition
      · obtain ⟨master, rfl⟩ := here
        have within := amUsed master d
        simp only [master, and_self, ↓reduceIte]
        omega
      · simp [here]
    · simp [nothing]

theorem Frees.own (frees : u.Frees (u.leave p r) r) : p = r.partition ∨ r.resource = .zero := by
  by_cases here : p = r.partition
  · exact .inl here
  · refine .inr (Resource.eq_of_amount fun d => ?_)
    have kept := frees.used r.partition d
    rw [leave_used, if_neg (Ne.symm here), if_pos rfl] at kept
    rw [Resource.amount_zero]
    omega

end Usage

namespace World

/-- A completion of a live container succeeds, and at the attempt and at its queue the container is
    off the partition that its record has, and off no other. -/
def ReleasesRecorded (w : World) : Call → Prop
  | .complete a c report ending partition =>
    ∀ s r, w.attempts.get? a = some s → s.live.get? c = some r →
      ∃ w' s', w.complete a c report ending partition = (true, w') ∧
        w'.attempts.get? a = some s' ∧ s.usage.Frees s'.usage (w.record r) ∧
        ∀ queue, w.queues.get? s.queue = some queue → ∃ queue',
          w'.queues.get? s.queue = some queue' ∧ queue.usage.Frees queue'.usage (w.record r)
  | _ => True

structure UsedMatches (w : World) : Prop where
  attempts : ∀ a s, w.attempts.get? a = some s → ∀ p d,
    (s.usage.get .used p).amount d = total (w.holding s).live p d ∧
    (s.usage.get .amUsed p).amount d = total ((w.holding s).live.filter (·.isMaster)) p d
  queues : ∀ q queue, w.queues.get? q = some queue → ∀ p d,
    (queue.usage.get .used p).amount d = w.sumOn q (fun s => total (w.holding s).live p d) ∧
    (queue.usage.get .amUsed p).amount d =
      w.sumOn q (fun s => total ((w.holding s).live.filter (·.isMaster)) p d)

variable {w w' start : World} {a : AttemptId} {s s' : Attempt} {c : ContainerId} {r : RecordId}

theorem Balanced.usedMatches {history : List (QueueName × Resource)} (balanced : Balanced start w)
    (mirrored : w.Mirrored history) : w.UsedMatches where
  attempts := by
    intro a s found p d
    obtain ⟨s₀, _, shows⟩ := balanced a s found
    exact ⟨shows .used p d, shows .amUsed p d⟩
  queues := by
    intro q queue found p d
    have figures := (mirrored q queue found).figures
    exact ⟨figures .used p d, figures .amUsed p d⟩

theorem Shift.within_used {record : Record}
    (shift : Shift w w' a s s' { live := [record.liveShare] } {}) (d : Dimension) :
    record.resource.amount d ≤ total (w.holding s).live record.partition d := by
  have part := (shift.figure .used record.partition d).1
  simpa [Holding.figure, total_single, Record.liveShare] using part

theorem Shift.within_amUsed {record : Record}
    (shift : Shift w w' a s s' { live := [record.liveShare] } {}) (master : record.isMaster)
    (d : Dimension) : record.resource.amount d ≤
      total ((w.holding s).live.filter (·.isMaster)) record.partition d := by
  have part := (shift.figure .amUsed record.partition d).1
  simpa [Holding.figure, total_single, Record.liveShare, master] using part

theorem Ends.frees {partition report ending} (sound : w.Sound) (used : w.UsedMatches)
    (step : Ends w w' a s s' c r partition report ending)
    (own : partition = (w.record r).partition ∨ (w.record r).resource = .zero) :
    s.usage.Frees s'.usage (w.record r) ∧
      ∀ queue, w.queues.get? s.queue = some queue → ∃ queue',
        w'.queues.get? s.queue = some queue' ∧ queue.usage.Frees queue'.usage (w.record r) := by
  have shift := sound.shift_ends step
  constructor
  · rw [step.usage]
    refine Usage.leave_frees own (fun d => ?_) fun master d => ?_
    · rw [(used.attempts a s step.before _ d).1]
      exact shift.within_used d
    · rw [(used.attempts a s step.before _ d).2]
      exact shift.within_amUsed master d
  · intro queue known
    refine ⟨_, (step.queues s.queue).trans (by rw [if_pos rfl, known]; rfl), ?_⟩
    refine Usage.leave_frees own (fun d => ?_) fun master d => ?_
    · rw [(used.queues s.queue queue known _ d).1]
      exact (shift.within_used d).trans
        (le_sumOn step.before fun t => total (w.holding t).live (w.record r).partition d)
    · rw [(used.queues s.queue queue known _ d).2]
      exact (shift.within_amUsed master d).trans (le_sumOn step.before fun t =>
        total ((w.holding t).live.filter (·.isMaster)) (w.record r).partition d)

theorem releasesRecorded_iff_own (sound : w.Sound) (used : w.UsedMatches) (c : Call) :
    w.ReleasesRecorded c ↔ w.ReleasesOwn c := by
  cases c with
  | complete a c report ending partition =>
    constructor
    · intro law r runs
      obtain ⟨s, before, found⟩ := Option.bind_eq_some_iff.mp runs
      obtain ⟨w', s', answer, after, frees, _⟩ := law s r before found
      obtain ⟨t, ends⟩ := complete_ends sound.toCoherent report ending partition before found
      rw [answer] at ends
      have same : t = s' := Option.some.inj (((ends.attempts a).trans (if_pos rfl)).symm.trans after)
      rw [← same, ends.usage] at frees
      exact frees.own
    · intro own s r before found
      have runs : w.running? a c = some r := by
        simp [running?, before, found]
      obtain ⟨s', ends⟩ := complete_ends sound.toCoherent report ending partition before found
      have answer : (w.complete a c report ending partition).1 = true := by
        simp [complete, before, found]
      obtain ⟨attempt, queue⟩ := ends.frees sound used (own r runs)
      exact ⟨_, s', Prod.ext answer rfl, (ends.attempts a).trans (if_pos rfl), attempt, queue⟩
  | _ => exact .rfl

/-- Completions take containers off where their records have them, and what is used stays the sum
    over the live containers, in every state of a run if and only if every completion names the
    recorded partition, or releases nothing. -/
theorem completions_exact_iff_own (opening : start.Opening) {calls : List Call}
    (fits : start.Along (fun w c => (w.perform c).FitsOnQueues) calls) :
    start.Along (fun w c => w.ReleasesRecorded c ∧ (w.perform c).UsedMatches) calls ↔
      start.Along ReleasesOwn calls := by
  suffices along : ∀ (w : World) history, w.Sound → Balanced start w → w.Mirrored history →
      w.Along (fun w c => (w.perform c).FitsOnQueues) calls →
      (w.Along (fun w c => w.ReleasesRecorded c ∧ (w.perform c).UsedMatches) calls ↔
        w.Along ReleasesOwn calls) from
    along start [] opening.sound opening.balanced opening.mirrored fits
  clear fits
  induction calls with
  | nil => exact fun _ _ _ _ _ _ => .rfl
  | cons c calls ih =>
    intro w history sound balanced mirrored ⟨fit, fits⟩
    have law := releasesRecorded_iff_own sound (balanced.usedMatches mirrored) c
    -- Up to the first completion that is not its own, the books are exact.
    have next : w.ReleasesOwn c → Balanced start (w.perform c) ∧
        (w.perform c).Mirrored (history ++ (w.givesBack c).toList) := by
      intro own
      have booked := booked sound c own
      exact ⟨booked.balanced balanced fit.fits, booked.mirrored mirrored fit⟩
    constructor
    · intro ⟨first, rest⟩
      have own := law.mp first.1
      obtain ⟨balanced, mirrored⟩ := next own
      exact ⟨own, (ih _ _ (sound.perform c) balanced mirrored fits).mp rest⟩
    · intro ⟨own, rest⟩
      obtain ⟨balanced, mirrored⟩ := next own
      exact ⟨⟨law.mpr own, balanced.usedMatches mirrored⟩,
        (ih _ _ (sound.perform c) balanced mirrored fits).mpr rest⟩

theorem completions_exact_iff_own_sample :
    sample.Along (fun w c => w.ReleasesRecorded c ∧ (w.perform c).UsedMatches) [
      .request ⟨"a"⟩ [⟨⟨1⟩, anyPlace, ⟨512, 1⟩, 1, true, ""⟩],
      .allocate ⟨"a"⟩ .offSwitch ⟨"n1"⟩ ⟨1⟩ ⟨⟨"c1"⟩, ⟨"n1"⟩, ⟨512, 1⟩, ⟨1⟩, true, none⟩,
      .relabel ⟨"a"⟩ ⟨"c1"⟩ "" "x",
      .complete ⟨"a"⟩ ⟨"c1"⟩ ⟨0, ""⟩ .finished "x"] := by
  refine (completions_exact_iff_own sample_opening ?_).mpr ⟨trivial, trivial, trivial, ?_, trivial⟩
  · refine ⟨?_, ?_, ?_, ?_, trivial⟩ <;> exact fitsOnQueues_of_load (by decide) (by decide)
  · intro r found
    have known : r = ⟨0⟩ := Option.some.inj (found.symm.trans (by decide))
    subst known
    exact .inl (by decide)

/-- A container that moved into another partition ends under the one that was read before. The call
    succeeds and nothing is live, but its resource stays where it was counted last, at the attempt
    and at the queue. -/
theorem completion_leaves_moved_figures :
    let calls : List Call := [
      .request ⟨"a"⟩ [⟨⟨1⟩, anyPlace, ⟨512, 1⟩, 1, true, ""⟩],
      .allocate ⟨"a"⟩ .offSwitch ⟨"n1"⟩ ⟨1⟩ ⟨⟨"c1"⟩, ⟨"n1"⟩, ⟨512, 1⟩, ⟨1⟩, true, none⟩,
      .relabel ⟨"a"⟩ ⟨"c1"⟩ "" "x"]
    let w := sample.after calls
    let c : Call := .complete ⟨"a"⟩ ⟨"c1"⟩ ⟨0, ""⟩ .finished ""
    sample.Opening ∧ sample.Along (fun w c => (w.perform c).FitsOnQueues) (calls ++ [c]) ∧
      (w.complete ⟨"a"⟩ ⟨"c1"⟩ ⟨0, ""⟩ .finished "").1 = true ∧
      (w.perform c).attempts.values.map (·.live.size) = [0, 0] ∧
      ((w.perform c).attempts.get? ⟨"a"⟩).map (·.usage.get .used "x") = some ⟨512, 1⟩ ∧
      ((w.perform c).attempts.get? ⟨"a"⟩).map (·.usage.get .amUsed "x") = some ⟨512, 1⟩ ∧
      ((w.perform c).queues.get? ⟨"q"⟩).map (·.usage.get .used "x") = some ⟨512, 1⟩ ∧
      ¬ w.ReleasesRecorded c := by
  intro calls w c
  have left : ((w.perform c).attempts.get? ⟨"a"⟩).map (·.usage.get .used "x") =
      some ⟨512, 1⟩ := by decide
  refine ⟨sample_opening, ?_, by decide, by decide, left, by decide, by decide, fun law => ?_⟩
  · refine ⟨?_, ?_, ?_, ?_, trivial⟩ <;> exact fitsOnQueues_of_load (by decide) (by decide)
  · have live : (w.attempts.get? ⟨"a"⟩).bind (·.live.get? ⟨"c1"⟩) = some ⟨0⟩ := by decide
    obtain ⟨s, before, found⟩ := Option.bind_eq_some_iff.mp live
    obtain ⟨w', s', answer, after, frees, _⟩ := law s ⟨0⟩ before found
    obtain ⟨t, known, size⟩ := Option.map_eq_some_iff.mp left
    have same : s' = t := by
      simp only [c, perform, answer] at known
      exact Option.some.inj (after.symm.trans known)
    have counted : (w.attempts.get? ⟨"a"⟩).map (·.usage.get .used "x") = some ⟨512, 1⟩ := by decide
    have kept := frees.used "x" .memory
    have here : (w.record ⟨0⟩).partition = "x" := by decide
    have amount : (w.record ⟨0⟩).resource = ⟨512, 1⟩ := by decide
    rw [before, Option.map_some, Option.some.injEq] at counted
    rw [same, size, here, amount, counted] at kept
    exact absurd kept (by decide)

end World
end ClusterLedger
