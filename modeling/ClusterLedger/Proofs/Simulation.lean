import ClusterLedger.Proofs.Build
import ClusterLedger.Proofs.Capacity
/- Simulations from outside: passes, preemption, heartbeats and what callers do to attempts between
   them. After each of these every claim on a node is some running container's. -/
namespace ClusterLedger

inductive Act
  | schedule (worker round : Nat)
  | preempt
  | beat (heartbeat : Nat)
  | stop (a : AttemptId)
  | request (a : AttemptId) (requests : List Request)
  | setClock (now : Nat)

namespace Simulation

def act (sim : Simulation) : Act → Simulation
  | .schedule worker round => (sim.schedulingPass worker round).2
  | .preempt => sim.preemptionPass.2
  | .beat heartbeat => (sim.beat heartbeat).2.2
  | .stop a => { sim with world := sim.world.perform (.stop a) }
  | .request a requests => { sim with world := sim.world.perform (.request a requests) }
  | .setClock now => { sim with world := sim.world.perform (.setClock now) }

def Even (nodes : Table NodeId Node) (sim : Simulation) : Prop :=
  World.Housed nodes sim.world fun _ _ => 0

variable {nodes : Table NodeId Node} {sim : Simulation}

theorem countEach_keeps {α : Type} {f : Simulation → α → PassStats × Simulation}
    (holds : Simulation → Prop) (step : ∀ sim x, holds sim → holds (f sim x).2)
    (start : holds sim) (items : List α) : holds (countEach f sim items).2 := by
  unfold countEach
  generalize ({} : PassStats) = stats
  induction items generalizing stats sim with
  | nil => exact start
  | cons x items ih => exact ih (step sim x start) _

/-- The claim that `place` was called under is the new container's, or is given back. -/
theorem place_even {a : AttemptId} {node : Node} {requests : List Request} {priority : Priority}
    {capability : Resource}
    (housed : World.Housed nodes sim.world (claimOn node.id capability)) :
    Even nodes (sim.place a node requests priority capability).2 := by
  -- Whatever was reserved is given up first, which leaves the claim pending.
  have freed := housed.quiet (c := .unreserve a priority node.id) trivial
  simp only [place, freshId, World.perform] at freed ⊢
  generalize sim.world.unreserve a priority node.id = answer at freed ⊢
  obtain ⟨unreserved, world⟩ := answer
  generalize made : ({ id := _, node := node.id, resource := capability, priority, token := _ } :
    Container) = container
  rcases World.allocate_cases (w := world) a (localityOn requests node) node.id priority container
    with refused | ⟨s, offered, before, there, may⟩
  · rw [refused]
    exact freed.release
  · obtain ⟨s', r, record, begins, answer, copy, label, site⟩ :=
      World.allocate_made freed.sound.toCoherent (localityOn requests node) before there may
    have placed : record.node = node.id := by
      rw [site, ← made]
    have resource : capability = record.resource := by
      rw [Record.resource, copy, ← made]
    subst resource
    generalize world.allocate a (localityOn requests node) node.id priority container = result
      at begins answer ⊢
    obtain ⟨granted, world'⟩ := result
    obtain rfl : granted = some r := answer
    exact freed.begins there begins placed label

theorem hold_even {a : AttemptId} {node : Node} {existing : Option RecordId} {priority : Priority}
    {capability : Resource} (even : Even nodes sim) :
    Even nodes (sim.hold a node existing priority capability).2 := by
  unfold hold
  split
  · exact even
  · simp only [freshId]
    generalize ({ id := _, node := node.id, resource := capability, priority } : Container) =
      container
    have reserved := even.quiet (c := .reserve a priority node.id existing container) trivial
    split <;> exact reserved

theorem offerAt_even (a : AttemptId) (n : NodeId) (partition : Partition) (priority : Priority)
    (even : Even nodes sim) : Even nodes (sim.offerAt a n partition priority).2 := by
  unfold offerAt
  split
  · rename_i s node before there
    split
    · exact even
    · split
      · exact even
      · split
        · rename_i claimed answer
          have named := even.sound.nodeNamed there
          exact place_even (named ▸ even.claim there answer)
        · exact hold_even even
  · exact even

theorem offer_even (n : NodeId) (a : AttemptId) (even : Even nodes sim) :
    Even nodes (offer n sim a).2 := by
  unfold offer
  split
  · rename_i s node before there
    split
    · exact even
    · have processed := even.quiet (c := .processNode a n) trivial
      simp only [World.perform, there] at processed
      have noted : Even nodes
        { sim with world := sim.world.updateAttempt a (·.processNode node) } := processed
      exact countEach_keeps (Even nodes)
        (fun sim p even => offerAt_even a n node.partition p even) noted _
  · exact even

theorem schedulingPass_even (worker round : Nat) (even : Even nodes sim) :
    Even nodes (sim.schedulingPass worker round).2 :=
  countEach_keeps (Even nodes) (fun _ e even => countEach_keeps (Even nodes)
    (fun _ a even => offer_even e.1 a even) even _) even _

theorem preemptTimes_even (count : Nat) (even : Even nodes sim) :
    Even nodes (sim.preemptTimes count).2 := by
  induction count generalizing sim with
  | zero => exact even
  | succ count ih =>
    unfold preemptTimes
    split
    · exact even
    · rename_i victim _
      refine ih ?_
      unfold preemptOne
      split
      · exact even
      · rename_i id _
        exact even.quiet (c := .mark victim.id id) trivial

theorem reclaim_even (a : AttemptId) (id : ContainerId) (even : Even nodes sim) :
    Even nodes (sim.reclaim a id).2 := by
  unfold reclaim
  split
  · exact even
  · rename_i r found
    obtain ⟨s, before, live⟩ := Option.bind_eq_some_iff.mp found
    obtain ⟨s', ends⟩ := World.complete_ends even.sound.toCoherent preemptedReport .preempted
      (sim.world.record r).partition before live
    have done : (sim.world.complete a id preemptedReport .preempted
        (sim.world.record r).partition).1 = true := by
      simp [World.complete, before, live]
    dsimp only
    generalize sim.world.complete a id preemptedReport .preempted
      (sim.world.record r).partition = result at ends done ⊢
    obtain ⟨ended, world⟩ := result
    obtain rfl : ended = true := done
    exact (even.ends ends).release

theorem reclaimAll_even (a : AttemptId) (ids : List ContainerId) (even : Even nodes sim) :
    Even nodes (sim.reclaimAll a ids).2 := by
  induction ids generalizing sim with
  | nil => exact even
  | cons id ids ih => exact ih (reclaim_even a id even)

theorem pull_even (heartbeat : Nat) (cluster : Resource) (order : List AttemptId)
    (even : Even nodes sim) : Even nodes (sim.pull heartbeat cluster order).2.2 := by
  induction order generalizing sim with
  | nil => exact even
  | cons a rest ih =>
    have delivered := even.quiet (c := .snapshot a cluster) trivial
    exact ih (reclaimAll_even a _ delivered)

theorem act_even (even : Even nodes sim) (x : Act) : Even nodes (sim.act x) := by
  cases x with
  | schedule worker round => exact schedulingPass_even worker round even
  | preempt => exact preemptTimes_even _ even
  | beat heartbeat => exact pull_even heartbeat _ _ even
  | stop a => exact even.quiet (c := .stop a) trivial
  | request a requests => exact even.quiet (c := .request a requests) trivial
  | setClock now => exact even.quiet (c := .setClock now) trivial

theorem acts_even (even : Even nodes sim) (acts : List Act) : Even nodes (acts.foldl act sim) := by
  induction acts generalizing sim with
  | nil => exact even
  | cons x acts ih => exact ih (act_even even x)

theorem even_opening (opening : sim.world.Opening)
    (free : ∀ n node, sim.world.nodes.get? n = some node → node.claimed = .zero) :
    Even sim.world.nodes sim := by
  have empty : sim.world.tenants = [] := by
    refine List.flatMap_eq_nil_iff.mpr fun s member => ?_
    obtain ⟨a, found⟩ := Table.mem_values.mp member
    rw [World.tenantsOf, (opening.attempts found).2.1.live]
    rfl
  refine ⟨⟨opening.sound, fun _ => rfl, ?_, ?_, ?_⟩, ?_⟩
  · intro n node found d
    rw [free n node found, empty]
    exact Resource.amount_zero d
  · intro n node found d
    rw [free n node found, Resource.amount_zero]
    exact Nat.zero_le _
  · simp [empty]
  · intro d _ q p r shown
    obtain ⟨queue, found, rfl⟩ := Option.map_eq_some_iff.mp shown
    rw [opening.queues found, empty]
    exact Resource.amount_zero d

/-- However a valid description is simulated, what is claimed on a node is what runs there, within
    the node's total, and queues show under `used` what runs on the nodes of each partition. -/
theorem nodes_hold_their_containers {c : Cluster} (valid : c.validate = .ok ()) :
    ∃ sim, build c = .ok sim ∧ ∀ acts : List Act,
      let w := (acts.foldl act sim).world
      (∀ spec ∈ c.nodes, ∃ node, w.nodes.get? spec.id = some node ∧ node.total = spec.total ∧
        node.partition = spec.partition) ∧
      (∀ n node, w.nodes.get? n = some node → ∀ d,
        (node.total - node.available).amount d =
          ((w.tenants.filter (·.node == n)).map (·.resource.amount d)).sum ∧
        ((w.tenants.filter (·.node == n)).map (·.resource.amount d)).sum ≤ node.total.amount d) ∧
      ∀ d, (c.nodes.map (·.total.amount d)).sum ≤ d.capacity →
        ∀ q queue p, w.queues.get? q = some queue → (queue.usage.get .used p).amount d =
          ((w.tenants.filter fun t =>
            t.queue == q && (w.nodes.get? t.node).any (·.partition == p)).map
              (·.resource.amount d)).sum := by
  obtain ⟨sim, built, opening, sites, free, totals⟩ := build_opening valid
  refine ⟨sim, built, fun acts => ?_⟩
  have even := acts_even (even_opening opening free) acts
  generalize acts.foldl act sim = final at even
  refine ⟨?_, ?_, ?_⟩
  · intro spec listed
    have site := even.sites spec.id
    rw [sites spec listed, Option.map_some] at site
    obtain ⟨node, found, same⟩ := Option.map_eq_some_iff.mp site
    obtain ⟨partition, total⟩ := Prod.mk.inj same
    exact ⟨node, found, total, partition⟩
  · intro n node found d
    have claims := even.claims n node found d
    have room := even.room n node found d
    rw [occupied] at claims
    simp only [Node.available, Resource.amount_sub]
    omega
  · intro d fits q queue p found
    have used := even.used d ((totals (·.amount d)).trans fits) q p (queue.usage.get .used p)
      (by simp [World.used?, found])
    rw [used, usedBy]
    congr 2
    refine List.filter_congr fun t member => ?_
    obtain ⟨node, there, label⟩ := Option.map_eq_some_iff.mp (even.placed t member)
    rw [there, ← label]
    rfl

theorem nodes_hold_their_containers_sample :
    let c : Cluster := {
      nodes := [{ id := ⟨"n1"⟩, memoryMb := 4096, vcores := 2 }]
      queues := [{ name := ⟨"q"⟩ }]
      attempts := [
        { id := ⟨"a"⟩, user := "u", queue := ⟨"q"⟩
          requests := [⟨⟨1⟩, anyPlace, ⟨2048, 1⟩, 2, true, ""⟩] },
        { id := ⟨"b"⟩, user := "u", queue := ⟨"q"⟩ }] }
    let acts : List Act := [.schedule 0 1, .schedule 0 2,
      .request ⟨"b"⟩ [⟨⟨1⟩, anyPlace, ⟨2048, 1⟩, 1, true, ""⟩], .schedule 0 3, .preempt, .beat 3]
    ∃ sim node queue, build c = .ok sim ∧
      (acts.foldl act sim).world.nodes.get? ⟨"n1"⟩ = some node ∧
      (node.total - node.available).amount .memory = 2048 ∧
      (acts.foldl act sim).world.queues.get? ⟨"q"⟩ = some queue ∧
      (queue.usage.get .used "").amount .memory = 2048 := by
  intro c acts
  obtain ⟨sim, built, holds⟩ := nodes_hold_their_containers (show c.validate = .ok () by decide)
  obtain ⟨sites, claims, used⟩ := holds acts
  obtain ⟨node, found, _, label⟩ := sites _ (List.mem_singleton.mpr rfl)
  have known : (build c).toOption.map (fun sim =>
      ((acts.foldl act sim).world.queues.get? ⟨"q"⟩).isSome) = some true := by decide +kernel
  have left : (build c).toOption.map (fun sim => (acts.foldl act sim).world.tenants) =
      some [⟨⟨"q"⟩, ⟨"n1"⟩, "", ⟨2048, 1⟩⟩] := by decide +kernel
  rw [built] at known left
  obtain ⟨queue, there⟩ := Option.isSome_iff_exists.mp (Option.some.inj known)
  have tenants : (acts.foldl act sim).world.tenants = _ := Option.some.inj left
  refine ⟨sim, node, queue, built, found, ?_, there, ?_⟩
  · rw [(claims ⟨"n1"⟩ node found .memory).1, tenants]
    decide
  · rw [used .memory (by decide) ⟨"q"⟩ queue "" there, tenants]
    simp only [List.filter_cons, List.filter_nil, found, Option.any_some, label]
    decide

end Simulation
end ClusterLedger
