import ClusterLedger.Proofs.Build
import ClusterLedger.Proofs.ByteOrder
import ClusterLedger.Proofs.Headroom
import Mathlib.Tactic.MkIffOfInductiveProp
/- A description against what is built from it. What the checks ask for is said without an order of
   checks, nodes are compared as a whole, so that one that replaced another would show, and attempts
   one by one, in the order of the description. -/
namespace ClusterLedger

namespace Cluster

@[mk_iff] structure Valid (c : Cluster) : Prop where
  minimum : ¬ (c.scheduler.minimumAllocation.memoryMb = 0 ∧ c.scheduler.minimumAllocation.vcores = 0)
  workers : 1 ≤ c.simulation.workers
  nodes : c.nodes ≠ []
  nodeIds : (c.nodes.map (·.id)).Nodup
  queueNames : (c.queues.map (·.name)).Nodup
  attemptIds : (c.attempts.map (·.id)).Nodup
  listed : ∀ spec ∈ c.attempts, ∃ q ∈ c.queues, q.name = spec.queue

theorem validate_iff_valid {c : Cluster} : c.validate = .ok () ↔ c.Valid := by
  have count : c.simulation.workers ≠ 0 ↔ 1 ≤ c.simulation.workers := by
    rw [UInt64.le_iff_toNat_le, ne_eq, ← UInt64.toNat_inj]
    exact Nat.pos_iff_ne_zero.symm
  rw [validate_iff, checkNodes_ok, checkQueues_ok, checkAttempts_ok, count, valid_iff]
  simp [Resource.isZero]

end Cluster

namespace World
variable {w : World}

theorem nodes_ascending (filed : ∀ n node, w.nodes.get? n = some node → node.id = n) :
    w.nodes.values.Pairwise fun m n => m.id.bytes < n.id.bytes := by
  refine List.pairwise_map.mpr (w.nodes.ascending.imp_of_mem fun {e e'} here there less => ?_)
  rw [filed e.1 e.2 (Table.mem_entries.mp here), filed e'.1 e'.2 (Table.mem_entries.mp there)]
  exact (e.1.compare_lt_iff_bytes e'.1).mp less

end World

namespace Simulation
variable {c : Cluster} {sim : Simulation}

/-- The register holds the nodes that are described, and nothing else. -/
structure Registers (sim : Simulation) (c : Cluster) : Prop where
  nodes : (sim.world.nodes.values.map fun n => (n.id, n.rack, n.partition, n.total)).Perm
    (c.nodes.map fun n => (n.id, n.rack, n.partition, n.total))
  ascending : sim.world.nodes.values.Pairwise fun m n => m.id.bytes < n.id.bytes
  /-- In whatever order the totals are summed up. -/
  total : ∀ l : List Node, l.Perm sim.world.nodes.values → .sum (l.map (·.total)) = c.resource

theorem ground_perm (valid : c.Valid) : (ground c).nodes.values.Perm (c.nodes.map nodeOf) := by
  have distinct : ((c.nodes.map nodeOf).map (·.id)).Nodup := by
    rw [List.map_map]
    exact valid.nodeIds
  rw [ground_nodes, World.nodes_addNodes]
  refine (Table.enter_values distinct fun _ _ => rfl).trans ?_
  exact .of_eq (List.append_nil _)

theorem ground_total (valid : c.Valid) {l : List Node} (perm : l.Perm (ground c).nodes.values) :
    .sum (l.map (·.total)) = c.resource := by
  rw [Resource.sum_perm ((perm.trans (ground_perm valid)).map (·.total)), List.map_map]
  rfl

theorem built_opening (valid : c.Valid) (built : build c = .ok sim) : sim.world.Opening := by
  obtain ⟨_, built', opening, _⟩ := build_opening (Cluster.validate_iff_valid.mpr valid)
  exact Except.ok.inj (built'.symm.trans built) ▸ opening

theorem build_registers (valid : c.Valid) (built : build c = .ok sim) : sim.Registers c := by
  have opening := built_opening valid built
  obtain rfl := Except.ok.inj ((build_eq (Cluster.validate_iff_valid.mpr valid)).symm.trans built)
  have nodes := World.nodes_addAttempts (ground c)
    (c.attempts.map (attemptOf c (ground c).clusterResource))
  refine ⟨?_, World.nodes_ascending fun n node found => (opening.nodes found).1, fun l perm => ?_⟩
  · simp only [nodes]
    refine ((ground_perm valid).map _).trans (.of_eq ?_)
    rw [List.map_map]
    rfl
  · simp only [nodes] at perm
    exact ground_total valid perm

/-- The attempt is made as its description has it, and has done nothing yet. -/
structure Configured (c : Cluster) (spec : AttemptSpec) (s : Attempt) : Prop where
  id : s.id = spec.id
  user : s.user = spec.user
  queue : s.queue = spec.queue
  calculator : s.calculator = c.scheduler.calculator
  minimumAllocation : s.minimumAllocation = c.scheduler.minimumAllocation
  amResource : s.amResource =
    (spec.amRequest.map (·.capability)).getD c.scheduler.minimumAllocation
  amPartition : s.amPartition = (spec.amRequest.map (·.label)).getD .default
  demand : s.demand = ({} : Demand).update spec.requests
  untouched : s.Untouched

/-- The attempt of the description is on the queue of its name, and has what the limit of that queue
    leaves, or the whole cluster where there is no limit. -/
structure Bounded (c : Cluster) (w : World) (spec : AttemptSpec) (s : Attempt) : Prop where
  id : s.id = spec.id
  user : s.user = spec.user
  queue : s.queue = spec.queue
  limited : ∀ q ∈ c.queues, q.name = spec.queue → ∀ limit, q.limit = some limit → ∃ queue,
    w.queues.get? q.name = some queue ∧ w.headroom s = limit - queue.usage.get .used q.partition
  unlimited : ∀ q ∈ c.queues, q.name = spec.queue → q.limit = none → w.headroom s = c.resource

theorem attemptOf_configured (c : Cluster) (cluster : Resource) (spec : AttemptSpec) :
    Configured c spec (attemptOf c cluster spec) := by
  refine ⟨attemptOf_id .., ?_, (attemptOf_untouched ..).2, ?_, ?_, ?_, ?_, ?_,
    (attemptOf_untouched ..).1⟩ <;>
  · unfold attemptOf
    dsimp only
    split <;> rfl

theorem find?_named {queues : List QueueSpec} (distinct : (queues.map (·.name)).Nodup) {q : QueueSpec}
    (listed : q ∈ queues) : queues.find? (·.name == q.name) = some q := by
  induction queues with
  | nil => simp at listed
  | cons first queues ih =>
    obtain ⟨apart, rest⟩ := List.nodup_cons.mp distinct
    rcases List.mem_cons.mp listed with rfl | later
    · exact List.find?_cons_of_pos (by simp)
    · have other : first.name ≠ q.name := fun same =>
        apart (List.mem_map.mpr ⟨q, later, same.symm⟩)
      rw [List.find?_cons_of_neg (by simpa using other)]
      exact ih rest later

section Bounds
variable {spec : AttemptSpec} {q : QueueSpec} (cluster : Resource)

theorem attemptOf_limited (found : c.queues.find? (·.name == spec.queue) = some q) {limit : Resource}
    (limited : q.limit = some limit) : (attemptOf c cluster spec).bounds =
      ⟨spec.user, spec.queue, some ⟨q.name, q.partition, limit⟩, .zero⟩ := by
  simp only [attemptOf, found, limited, Option.bind_some, Option.map_some]
  rfl

theorem attemptOf_unlimited (found : c.queues.find? (·.name == spec.queue) = some q)
    (unlimited : q.limit = none) :
    (attemptOf c cluster spec).bounds = ⟨spec.user, spec.queue, none, cluster⟩ := by
  simp only [attemptOf, found, unlimited, Option.bind_some, Option.map_none]
  rfl

end Bounds

theorem attempts_listed {specs : List AttemptSpec} {R : AttemptSpec → Attempt → Prop}
    (order : sim.order = specs.map (·.id))
    (each : ∀ spec ∈ specs, ∃ s, sim.world.attempts.get? spec.id = some s ∧ R spec s) :
    List.Forall₂ R specs sim.attempts := by
  unfold attempts
  rw [order]
  clear order
  induction specs with
  | nil => exact .nil
  | cons spec specs ih =>
    obtain ⟨s, found, holds⟩ := each spec (by simp)
    rw [List.map_cons, List.filterMap_cons_some found]
    exact .cons holds (ih fun other member => each other (by simp [member]))

theorem build_attempt (valid : c.Valid) (built : build c = .ok sim) {spec : AttemptSpec}
    (listed : spec ∈ c.attempts) :
    sim.world.attempts.get? spec.id = some (attemptOf c c.resource spec) := by
  obtain rfl := Except.ok.inj ((build_eq (Cluster.validate_iff_valid.mpr valid)).symm.trans built)
  have whole : (ground c).clusterResource = c.resource := ground_total valid (.refl _)
  have named : ((c.attempts.map (attemptOf c c.resource)).map (·.id)).Nodup := by
    rw [List.map_map, show (·.id) ∘ attemptOf c c.resource = (·.id) from funext (attemptOf_id c _)]
    exact valid.attemptIds
  have own := Table.enter_own (t := (ground c).attempts) named
    (List.mem_map_of_mem (f := attemptOf c c.resource) listed)
  simp only [whole, World.attempts_addAttempts]
  rwa [attemptOf_id] at own

theorem acts_bounded (valid : c.Valid) (built : build c = .ok sim) (acts : List Act)
    {spec : AttemptSpec} (listed : spec ∈ c.attempts) :
    ∃ s, (acts.foldl act sim).world.attempts.get? spec.id = some s ∧
      Bounded c (acts.foldl act sim).world spec s := by
  have opening := built_opening valid built
  have bounds := congrFun (bounds_acts opening.tidy acts) spec.id
  have sound : (acts.foldl act sim).world.Sound :=
    (plays_script opening.tidy acts).world ▸ opening.sound.after _
  generalize (acts.foldl act sim).world = w at bounds sound ⊢
  have kept := bounds.trans (congrArg (·.map Attempt.bounds) (build_attempt valid built listed))
  obtain ⟨s, found, same⟩ := Option.map_eq_some_iff.mp kept
  have queue : ∀ q ∈ c.queues, q.name = spec.queue →
      c.queues.find? (·.name == spec.queue) = some q := fun q member named =>
    named ▸ find?_named valid.queueNames member
  have configured := attemptOf_configured c c.resource spec
  refine ⟨s, found, sound.attemptNamed found, (congrArg Bounds.user same).trans configured.user,
    (congrArg Bounds.queue same).trans configured.queue, ?_, ?_⟩
  · intro q member named limit limited
    rw [attemptOf_limited _ (queue q member named) limited] at same
    have onQueue : s.queue = q.name := (congrArg Bounds.queue same).trans named.symm
    rw [← onQueue]
    exact World.headroom_limited sound found (l := ⟨q.name, q.partition, limit⟩)
      (congrArg Bounds.limit same) onQueue.symm
  · intro q member named unlimited
    rw [attemptOf_unlimited _ (queue q member named) unlimited] at same
    have free : s.queueLimit = none := congrArg Bounds.limit same
    rw [World.headroom, free]
    exact congrArg Bounds.fallback same

theorem acts_order (valid : c.Valid) (built : build c = .ok sim) (acts : List Act) :
    (acts.foldl act sim).order = c.attempts.map (·.id) := by
  rw [(plays_script (built_opening valid built).tidy acts).order]
  obtain rfl := Except.ok.inj ((build_eq (Cluster.validate_iff_valid.mpr valid)).symm.trans built)
  rfl

/-- The checks let pass exactly the descriptions that are as they have to be, and these are built. The
    register has the nodes of the description then, none replaced, and their total, and the attempts
    are those of the description, one by one. Each is on its queue and bounded by that as long as the
    simulation goes on. -/
theorem build_agrees (c : Cluster) :
    (c.validate = .ok () ↔ c.Valid) ∧ ((∃ sim, build c = .ok sim) ↔ c.validate = .ok ()) ∧
    ∀ sim, build c = .ok sim → sim.Registers c ∧
      List.Forall₂ (Configured c) c.attempts sim.attempts ∧
      ∀ acts : List Act, List.Forall₂ (Bounded c (acts.foldl act sim).world) c.attempts
        (acts.foldl act sim).attempts := by
  have builds : (∃ sim, build c = .ok sim) ↔ c.validate = .ok () := by
    constructor
    · rintro ⟨sim, built⟩
      cases checked : c.validate with
      | ok => rfl
      | error e => simp [build, checked, bind, Except.bind] at built
    · exact fun checked => ⟨_, build_eq checked⟩
  refine ⟨Cluster.validate_iff_valid, builds, fun sim built => ?_⟩
  have valid := Cluster.validate_iff_valid.mp (builds.mp ⟨sim, built⟩)
  refine ⟨build_registers valid built, ?_, fun acts => ?_⟩
  · exact attempts_listed (acts_order valid built []) fun spec listed =>
      ⟨_, build_attempt valid built listed, attemptOf_configured c c.resource spec⟩
  · exact attempts_listed (acts_order valid built acts) fun spec listed =>
      acts_bounded valid built acts listed

/-- The nodes are described in the other order, and their memory is more than can be written. The limit
    bounds the attempt, of which a pass has used some. -/
theorem build_agrees_sample :
    let c : Cluster := {
      nodes := [{ id := ⟨"n2"⟩, memoryMb := 18446744073709551615, vcores := 8 },
        { id := ⟨"n1"⟩, memoryMb := 1024, vcores := 8 }]
      queues := [{ name := ⟨"q"⟩, limit := some ⟨4096, 4⟩ }]
      attempts := [
        { id := ⟨"a"⟩, user := "u", queue := ⟨"q"⟩
          requests := [⟨⟨1⟩, anyPlace, ⟨1024, 1⟩, 1, true, ""⟩] }] }
    c.Valid ∧ ∃ sim, build c = .ok sim ∧
      sim.world.clusterResource = ⟨18446744073709551615, 16⟩ ∧
      ∃ s queue, (sim.act (.schedule 0 1)).attempts = [s] ∧
        (sim.act (.schedule 0 1)).world.queues.get? ⟨"q"⟩ = some queue ∧
        (sim.act (.schedule 0 1)).world.headroom s = ⟨4096, 4⟩ - queue.usage.get .used "" ∧
        queue.usage.get .used "" = ⟨1024, 1⟩ := by
  intro c
  obtain ⟨valid, builds, described⟩ := build_agrees c
  have checked : c.validate = .ok () := by decide +kernel
  obtain ⟨sim, built⟩ := builds.mpr checked
  obtain ⟨registers, _, bounded⟩ := described sim built
  have total : c.resource = ⟨18446744073709551615, 16⟩ := by decide +kernel
  have seen : (build c).toOption.map (fun sim =>
      ((sim.act (.schedule 0 1)).world.queues.get? ⟨"q"⟩).map (·.usage.get .used "")) =
        some (some ⟨1024, 1⟩) := by
    decide +kernel
  refine ⟨valid.mp checked, sim, built, (registers.total _ (.refl _)).trans total, ?_⟩
  have later := bounded [.schedule 0 1]
  generalize attempts : (sim.act (.schedule 0 1)).attempts = found
  rw [List.foldl_cons, List.foldl_nil, attempts] at later
  obtain ⟨s, _, holds, rest, rfl⟩ := List.forall₂_cons_left_iff.mp later
  obtain rfl := List.forall₂_nil_left_iff.mp rest
  obtain ⟨queue, there, headroom⟩ := holds.limited _ (List.mem_singleton.mpr rfl) rfl _ rfl
  refine ⟨s, queue, rfl, there, headroom, ?_⟩
  rw [built] at seen
  have used : ((sim.act (.schedule 0 1)).world.queues.get? ⟨"q"⟩).map (·.usage.get .used "") =
      some ⟨1024, 1⟩ := Option.some.inj seen
  have there : (sim.act (.schedule 0 1)).world.queues.get? ⟨"q"⟩ = some queue := there
  rw [there] at used
  exact Option.some.inj used

end Simulation
end ClusterLedger
