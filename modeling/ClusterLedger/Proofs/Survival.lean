import ClusterLedger.Proofs.Preemption
/- Whether preemption leaves its victim something that runs. A pass counts the attempts that starve, and
   what its victim runs, but not what of that is marked already. -/
namespace ClusterLedger
open Simulation

namespace World

def Spared (w : World) (a : AttemptId) : Prop := (w.roster a).live.keys ≠ [] → w.unmarked a ≠ []

variable {w w' : World} {a : AttemptId}

theorem Spared.kept (spared : w.Spared a) (live : (w'.roster a).live = (w.roster a).live)
    (marks : (w'.roster a).marks = (w.roster a).marks) : w'.Spared a := by
  simpa only [Spared, unmarked, live, marks] using spared

theorem Spared.perform (tidy : w.Tidy) (spared : w.Spared a) {c : Call} (keeps : c.KeepsMarks) :
    (w.perform c).Spared a := by
  have course := (passage_perform tidy.toFiled c).course a
  obtain ⟨given, others⟩ := deedOf_keeps keeps w a
  generalize w.deedOf a c = d at *
  cases course with
  | @begins c r _ _ _ idFree _ roster =>
    refine fun _ => List.ne_nil_of_mem (a := c.id) (mem_unmarked.mpr ⟨?_, ?_⟩)
    · simp [roster, Roster.begin]
    · rw [roster, Roster.begin, Bool.eq_false_iff]
      intro marked
      simpa [idFree] using (tidy.orderly a).marked c.id marked
  | @ends id => exact absurd rfl (others id).1
  | @marks id => exact absurd rfl (others id).2
  | delivers => exact absurd rfl given
  | @reserves _ _ gone roster =>
    have left := (w.roster a).giveUp_within gone
    exact spared.kept (by rw [roster]; exact left.live) (by rw [roster]; exact left.marks)
  | frees roster => exact spared.kept (by rw [roster]; rfl) (by rw [roster]; rfl)
  | stays roster => exact spared.kept (by rw [roster]) (by rw [roster])

theorem Spared.after (tidy : w.Tidy) (spared : w.Spared a) {calls : List Call}
    (keep : ∀ c ∈ calls, c.KeepsMarks) : (w.after calls).Spared a := by
  induction calls generalizing w with
  | nil => exact spared
  | cons c calls ih =>
    exact ih (tidy.perform c) (spared.perform tidy (keep c List.mem_cons_self))
      fun c member => keep c (List.mem_cons_of_mem _ member)

end World

namespace Simulation
variable {sim : Simulation}

/-- As many attempts starve, or more, as the victim runs containers without a mark. -/
def Exhausts (sim : Simulation) : Prop :=
  ∃ victim ∈ sim.victim?, sim.world.unmarked victim.id ≠ [] ∧
    (sim.world.unmarked victim.id).length ≤ sim.starving

instance (sim : Simulation) : Decidable sim.Exhausts :=
  inferInstanceAs (Decidable (∃ victim ∈ sim.victim?, _ ∧ _))

theorem pass_spares (filed : sim.world.Filed) (a : AttemptId) :
    sim.preemptionPass.2.world.unmarked a ≠ [] ↔
      sim.claimed a < (sim.world.unmarked a).length := by
  rw [(pass_unmarked filed a).1, ← List.length_pos_iff, List.rdrop, List.length_take]
  omega

theorem exhausts_iff : sim.Exhausts ↔ ∃ a, sim.world.unmarked a ≠ [] ∧
    (sim.world.unmarked a).length ≤ sim.claimed a := by
  cases chosen : sim.victim? with
  | none => simp [Exhausts, claimed, chosen]
  | some victim =>
    simp only [Exhausts, claimed, chosen, Option.mem_def, Option.some.injEq, exists_eq_left',
      Option.any_some, decide_eq_true_eq]
    constructor
    · rintro ⟨any, few⟩
      exact ⟨victim.id, any, by rwa [if_pos rfl]⟩
    · rintro ⟨a, any, few⟩
      split at few
      · rename_i own
        exact own ▸ ⟨any, few⟩
      · exact absurd (List.length_eq_zero_iff.mp (Nat.le_zero.mp few)) any

theorem pass_spares_iff (filed : sim.world.Filed) :
    (∀ a, sim.world.unmarked a ≠ [] → sim.preemptionPass.2.world.unmarked a ≠ []) ↔
      ¬ sim.Exhausts := by
  simp only [exhausts_iff, pass_spares filed, not_exists, not_and, Nat.not_le]

theorem beat_leaves (steady : sim.Steady) (heartbeat : Nat) (a : AttemptId) :
    ((sim.beat heartbeat).2.2.world.roster a).live.keys = sim.world.unmarked a ∧
      ((sim.beat heartbeat).2.2.world.roster a).marks = {} := by
  obtain ⟨_, _, drains, keeps, _⟩ := pull_reclaims steady.sound steady.tidy heartbeat
    sim.world.clusterResource steady.lists.distinct
  by_cases listed : a ∈ sim.order
  · exact ⟨pull_live steady.sound steady.tidy heartbeat _ steady.lists.distinct a listed,
      drains a listed⟩
  · have absent : sim.world.attempts.get? a = none := by
      by_contra there
      exact listed (steady.lists.complete a (Option.isSome_iff_ne_none.mpr there))
    have blank : sim.world.roster a = {} := by simp [World.roster, absent]
    rw [beat, keeps a listed, World.unmarked, blank]
    exact ⟨rfl, rfl⟩

theorem beat_unmarked (steady : sim.Steady) (heartbeat : Nat) (a : AttemptId) :
    (sim.beat heartbeat).2.2.world.unmarked a = sim.world.unmarked a := by
  obtain ⟨live, marks⟩ := beat_leaves steady heartbeat a
  rw [World.unmarked, live, marks]
  exact List.filter_eq_self.mpr fun id _ => rfl

theorem spared_act (steady : sim.Steady) {x : Act} (minded : x = .preempt → ¬ sim.Exhausts)
    {a : AttemptId} (spared : sim.world.Spared a) : (sim.act x).world.Spared a := by
  have plays := (plays_act steady.tidy x).world
  have kept : (∀ c ∈ sim.calls x, c.KeepsMarks) → (sim.act x).world.Spared a := by
    intro keep
    rw [plays]
    exact spared.after steady.tidy keep
  cases x with
  | schedule worker round =>
    exact kept fun c member => (passCalls_schedule worker round c member).keepsMarks
  | preempt =>
    intro runs
    have same : (sim.preemptionPass.2.world.roster a).live = (sim.world.roster a).live :=
      (pass_unmarked steady.tidy.toFiled a).2
    refine (pass_spares_iff steady.tidy.toFiled).mpr (minded rfl) a (spared ?_)
    rwa [← same]
  | beat heartbeat =>
    intro runs
    rw [act, beat_unmarked steady, ← (beat_leaves steady heartbeat a).1]
    exact runs
  | _ => exact kept (by simp [calls, Call.KeepsMarks])

theorem spared_acts (steady : sim.Steady) {a : AttemptId} (spared : sim.world.Spared a)
    {acts : List Act}
    (minded : ∀ past, past ++ [.preempt] <+: acts → ¬ (past.foldl act sim).Exhausts) :
    (acts.foldl act sim).world.Spared a := by
  induction acts generalizing sim with
  | nil => exact spared
  | cons x acts ih =>
    refine ih (steady.act x) (spared_act steady (fun is => ?_) spared) fun past stretch => ?_
    · exact minded [] (by simp [is])
    · exact minded (x :: past) (List.cons_prefix_cons.mpr ⟨rfl, stretch⟩)

/-- However a valid description is simulated: after a preemption pass every attempt that ran a
    container without a mark still does, and the heartbeat after it leaves each of them one, if and
    only if fewer attempts starve than the victim of the pass runs without a mark. Where that is so
    for every pass of a run, no heartbeat takes the last container of an attempt. -/
theorem survivors_left_iff {c : Cluster} (valid : c.validate = .ok ()) :
    ∃ sim, build c = .ok sim ∧ ∀ acts : List Act,
      let now := acts.foldl act sim
      let marked := now.act .preempt
      ((∀ a, now.world.unmarked a ≠ [] → marked.world.unmarked a ≠ []) ↔ ¬ now.Exhausts) ∧
      (∀ heartbeat, (∀ a, now.world.unmarked a ≠ [] →
          ((marked.act (.beat heartbeat)).world.roster a).live.keys ≠ []) ↔ ¬ now.Exhausts) ∧
      ((∀ past, past ++ [.preempt] <+: acts → ¬ (past.foldl act sim).Exhausts) →
        ∀ heartbeat a, (now.world.roster a).live.keys ≠ [] →
          ((now.act (.beat heartbeat)).world.roster a).live.keys ≠ []) := by
  obtain ⟨sim, built, opening, steady, _⟩ := build_steady valid
  refine ⟨sim, built, fun acts => ?_⟩
  intro now marked
  have here := steady.acts acts
  have spares := pass_spares_iff here.tidy.toFiled
  refine ⟨spares, fun heartbeat => ?_, fun minded heartbeat a runs => ?_⟩
  · have left : ∀ a, ((marked.act (.beat heartbeat)).world.roster a).live.keys =
        marked.world.unmarked a := fun a => (beat_leaves (here.act .preempt) heartbeat a).1
    simp only [left]
    exact spares
  · have blank : sim.world.Spared a := by
      intro runs
      simp [opening.roster_blank, Table.keys] at runs
      exact absurd rfl runs
    have left : ((now.act (.beat heartbeat)).world.roster a).live.keys = now.world.unmarked a :=
      (beat_leaves here heartbeat a).1
    rw [left]
    exact spared_acts steady blank minded runs

theorem survivors_left_iff_sample :
    let c : Cluster := {
      nodes := [{ id := ⟨"n1"⟩, memoryMb := 4096, vcores := 2 }]
      queues := [{ name := ⟨"q"⟩ }]
      attempts := [
        { id := ⟨"a"⟩, user := "u", queue := ⟨"q"⟩
          requests := [⟨⟨1⟩, anyPlace, ⟨2048, 1⟩, 2, true, ""⟩] },
        { id := ⟨"b"⟩, user := "u", queue := ⟨"q"⟩ }] }
    let acts : List Act := [.schedule 0 1, .schedule 0 2,
      .request ⟨"b"⟩ [⟨⟨1⟩, anyPlace, ⟨2048, 1⟩, 1, true, ""⟩], .schedule 0 3]
    c.validate = .ok () ∧ ∃ sim, build c = .ok sim ∧
      let marked := (acts.foldl act sim).act .preempt
      (acts.foldl act sim).world.unmarked ⟨"a"⟩ ≠ [] ∧ (acts.foldl act sim).starving = 1 ∧
        ((marked.act (.beat 3)).world.roster ⟨"a"⟩).live.keys ≠ [] := by
  intro c acts
  have valid : c.validate = .ok () := by decide
  obtain ⟨sim, built, holds⟩ := survivors_left_iff valid
  obtain ⟨_, beats, _⟩ := holds acts
  have seen : (build c).toOption.map (fun sim => (decide (acts.foldl act sim).Exhausts,
      (acts.foldl act sim).world.unmarked ⟨"a"⟩, (acts.foldl act sim).starving)) =
      some (false, [⟨"container_a_000001"⟩, ⟨"container_a_000002"⟩], 1) := by
    decide +kernel
  rw [built] at seen
  simp only [Except.toOption, Option.map_some, Option.some.injEq, Prod.mk.injEq,
    decide_eq_false_iff_not] at seen
  obtain ⟨spares, unmarked, starve⟩ := seen
  have two : (acts.foldl act sim).world.unmarked ⟨"a"⟩ ≠ [] := by rw [unmarked]; simp
  exact ⟨valid, sim, built, two, starve, (beats 3).mpr spares ⟨"a"⟩ two⟩

/-- Two attempts starve, and the only victim runs two containers: it loses both of them at once. -/
theorem victim_loses_all :
    let c : Cluster := {
      nodes := [{ id := ⟨"n1"⟩, memoryMb := 4096, vcores := 2 }]
      queues := [{ name := ⟨"q"⟩ }]
      attempts := [
        { id := ⟨"a"⟩, user := "u", queue := ⟨"q"⟩
          requests := [⟨⟨1⟩, anyPlace, ⟨2048, 1⟩, 2, true, ""⟩] },
        { id := ⟨"b"⟩, user := "u", queue := ⟨"q"⟩ },
        { id := ⟨"c"⟩, user := "u", queue := ⟨"q"⟩ }] }
    let acts : List Act := [.schedule 0 1, .schedule 0 2,
      .request ⟨"b"⟩ [⟨⟨1⟩, anyPlace, ⟨2048, 1⟩, 1, true, ""⟩],
      .request ⟨"c"⟩ [⟨⟨1⟩, anyPlace, ⟨2048, 1⟩, 1, true, ""⟩]]
    c.validate = .ok () ∧ ∃ sim, build c = .ok sim ∧
      let now := acts.foldl act sim
      let marked := now.act .preempt
      now.world.unmarked ⟨"a"⟩ = [⟨"container_a_000001"⟩, ⟨"container_a_000002"⟩] ∧
        ((marked.act (.beat 3)).world.roster ⟨"a"⟩).live.keys = [] ∧
        ¬ ∀ a, now.world.unmarked a ≠ [] → marked.world.unmarked a ≠ [] := by
  intro c acts
  obtain ⟨sim, built⟩ : ∃ sim, build c = .ok sim :=
    (build_steady (show c.validate = .ok () by decide)).imp fun _ built => built.1
  have seen : (build c).toOption.map (fun sim =>
      let marked := (acts.foldl act sim).act .preempt
      ((acts.foldl act sim).world.unmarked ⟨"a"⟩, marked.world.unmarked ⟨"a"⟩,
        ((marked.act (.beat 3)).world.roster ⟨"a"⟩).live.keys)) =
      some ([⟨"container_a_000001"⟩, ⟨"container_a_000002"⟩], [], []) := by
    decide +kernel
  rw [built] at seen
  simp only [Except.toOption, Option.map_some, Option.some.injEq, Prod.mk.injEq] at seen
  obtain ⟨ran, marked, gone⟩ := seen
  refine ⟨by decide, sim, built, ran, gone, fun spares => spares ⟨"a"⟩ ?_ marked⟩
  rw [ran]
  simp

end Simulation
end ClusterLedger
