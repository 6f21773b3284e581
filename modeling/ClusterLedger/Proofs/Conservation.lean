import ClusterLedger.Proofs.Script
/- No container is lost or told twice: those that passes report as allocated are live or were reported
   as reclaimed, and heartbeats hand over each of them once. -/
namespace ClusterLedger

namespace World
variable {w : World} {order : List AttemptId}

theorem starts_drawn (w : World) (calls : List Call) :
    ((w.gather starts calls).map (·.id)).Sublist (calls.filterMap Call.drawn?) := by
  induction calls generalizing w with
  | nil => exact List.nil_sublist _
  | cons c calls ih =>
    have first : ((w.starts c).map (·.id)).Sublist c.drawn?.toList := by
      cases c with
      | allocate a locality n priority container =>
        simp only [starts, Call.drawn?]
        split <;> simp
      | _ => exact List.nil_sublist _
    have whole : (c :: calls).filterMap Call.drawn? =
        c.drawn?.toList ++ calls.filterMap Call.drawn? := by
      cases named : c.drawn? <;> simp [named]
    rw [gather, List.map_append, whole]
    exact first.append (ih _)

theorem population_attempts (w : World) (order : List AttemptId) :
    ((order.filterMap w.attempts.get?).map (·.live.size)).sum = w.population order := by
  induction order with
  | nil => rfl
  | cons a order ih =>
    have rest : w.population (a :: order) = (w.roster a).live.size + w.population order := rfl
    cases found : w.attempts.get? a with
    | none =>
      have none : w.roster a = {} := by simp [roster, found]
      rw [List.filterMap_cons_none found, ih, rest, none]
      exact (Nat.zero_add _).symm
    | some s =>
      rw [List.filterMap_cons_some found, List.map_cons, List.sum_cons, ih, rest,
        roster_of_found found]
      rfl

theorem Opening.blank (opening : w.Opening) (order : List AttemptId) :
    order.flatMap w.waits = [] ∧ w.population order = 0 := by
  constructor
  · exact List.flatMap_eq_nil_iff.mpr fun a _ => by rw [waits, opening.roster_blank, List.map_nil]
  · rw [population, List.sum_eq_zero_iff]
    intro size member
    obtain ⟨a, _, rfl⟩ := List.mem_map.mp member
    rw [opening.roster_blank]
    rfl

end World

namespace Simulation

/-- However a valid description is simulated, by calls that the script lists, as many of which make
    a container live as passes report: the names that were drawn differ, what passes allocated is live
    or was reclaimed, and once a heartbeat is over, the containers in all its records and those of
    earlier heartbeats are what was ever allocated, each once. -/
theorem containers_conserved {c : Cluster} (valid : c.validate = .ok ()) :
    ∃ sim, build c = .ok sim ∧ ∀ acts : List Act,
      let final := acts.foldl act sim
      let drawn := (sim.script acts).filterMap Call.drawn?
      let told := sim.account acts
      final.world = sim.world.after (sim.script acts) ∧
      (sim.world.gather World.starts (sim.script acts)).length = told.allocated ∧
      (∃ attempts, drawn = namesFrom 1 attempts ∧
        final.nextContainer = 1 + attempts.length) ∧
      drawn.Nodup ∧
      told.allocated = (final.attempts.map (·.live.size)).sum + told.reclaimed ∧
      ∀ heartbeat,
        let past := acts ++ [.beat heartbeat]
        let listed := (sim.account past).records.flatMap (·.snapshot.containers)
        (listed.map (·.id)).Nodup ∧
          listed.Perm (sim.world.gather World.starts (sim.script past)) := by
  obtain ⟨sim, built, opening, _⟩ := build_opening valid
  obtain ⟨distinct, complete, first⟩ := build_order valid built
  have lists : sim.world.Lists sim.order := ⟨distinct, complete⟩
  have tidy := opening.tidy
  obtain ⟨nothing, nobody⟩ := opening.blank sim.order
  have names : ∀ acts, ((sim.script acts).filterMap Call.drawn?).Nodup := by
    intro acts
    obtain ⟨attempts, drawn, _⟩ := (plays_script tidy acts).drawn
    exact drawn ▸ namesFrom_nodup _ _
  refine ⟨sim, built, fun acts => ?_⟩
  have plays := plays_script tidy acts
  refine ⟨plays.world, plays.begun, ?_, names acts, ?_, fun heartbeat => ?_⟩
  · rw [← first]
    exact plays.drawn
  · have live := (World.run_balance tidy lists plays.late).2
    rw [nobody, plays.begun, plays.ended, ← plays.world] at live
    rw [attempts, World.population_attempts, plays.order]
    omega
  · -- The heartbeat asks every attempt, so it leaves nothing in line.
    have delivered : sim.order.flatMap
        ((acts ++ [Act.beat heartbeat]).foldl act sim).world.waits = [] := by
      refine List.flatMap_eq_nil_iff.mpr fun a member => ?_
      rw [List.foldl_append]
      rw [← plays.order] at member
      exact List.map_eq_nil_iff.mpr (pull_idle (plays.tidy tidy) heartbeat _ (.inl member))
    have whole := plays_script tidy (acts ++ [Act.beat heartbeat])
    have line := (World.run_balance tidy lists whole.late).1
    rw [nothing, whole.handed, ← whole.world, delivered, List.nil_append, List.append_nil] at line
    refine ⟨?_, line.symm⟩
    exact (line.map (·.id)).nodup_iff.mp ((World.starts_drawn _ _).nodup (names _))

/-- One attempt fills the only node, which is held for the other until a heartbeat takes one of the
    two containers back. The name of the second attempt ends like a name that was drawn. -/
theorem containers_conserved_sample :
    let c : Cluster := {
      nodes := [{ id := ⟨"n1"⟩, memoryMb := 4096, vcores := 2 }]
      queues := [{ name := ⟨"q"⟩ }]
      attempts := [
        { id := ⟨"a"⟩, user := "u", queue := ⟨"q"⟩
          requests := [⟨⟨1⟩, anyPlace, ⟨2048, 1⟩, 2, true, ""⟩] },
        { id := ⟨"a_000001"⟩, user := "u", queue := ⟨"q"⟩ }] }
    let acts : List Act := [.schedule 0 1, .schedule 0 2,
      .request ⟨"a_000001"⟩ [⟨⟨1⟩, anyPlace, ⟨2048, 1⟩, 1, true, ""⟩], .schedule 0 3, .preempt,
      .beat 3, .schedule 0 4]
    ∃ sim, build c = .ok sim ∧ (sim.account acts).reclaimed = 1 ∧
      (sim.account acts).allocated = 3 ∧
      ((sim.script acts).filterMap Call.drawn?).length = 4 ∧
      (sim.account (acts ++ [.beat 4])).records.flatMap (·.snapshot.containers.map (·.id.text)) =
        ["container_a_000001", "container_a_000002", "container_a_000001_000004"] ∧
      ((sim.account (acts ++ [.beat 4])).records.flatMap (·.snapshot.containers)).Perm
        (sim.world.gather World.starts (sim.script (acts ++ [.beat 4]))) := by
  intro c acts
  obtain ⟨sim, built, holds⟩ := containers_conserved (show c.validate = .ok () by decide)
  obtain ⟨_, _, ⟨attempts, drawn, number⟩, _, balanced, delivers⟩ := holds acts
  have seen : (build c).toOption.map (fun sim =>
      ((sim.account acts).reclaimed, (acts.foldl act sim).nextContainer,
        ((acts.foldl act sim).attempts.map (·.live.size)).sum,
        (sim.account (acts ++ [.beat 4])).records.flatMap
          (·.snapshot.containers.map (·.id.text)))) =
      some (1, 5, 2, ["container_a_000001", "container_a_000002", "container_a_000001_000004"]) := by
    decide +kernel
  rw [built] at seen
  simp only [Except.toOption, Option.map_some, Option.some.injEq, Prod.mk.injEq] at seen
  obtain ⟨reclaimed, next, live, texts⟩ := seen
  refine ⟨sim, built, reclaimed, ?_, ?_, texts, (delivers 4).2⟩
  · rw [balanced, live, reclaimed]
  · rw [drawn, namesFrom_length]
    omega

end Simulation
end ClusterLedger
