import ClusterLedger.Proofs.Run
import ClusterLedger.Simulation
import Mathlib.Algebra.Order.BigOperators.Group.List
import Mathlib.Algebra.Order.Ring.Nat
/- What a valid description is built into: its nodes, blank queues and untouched attempts. -/
namespace ClusterLedger

section Checks
variable {ε α β : Type} {first : Except ε β} {next : β → Except ε α} {rest : Except ε α} {x : α}

theorem check_ok {p : Prop} [Decidable p] {e : ε} :
    (if p then throw e >>= next else rest) = .ok x ↔ ¬ p ∧ rest = .ok x := by
  by_cases stops : p <;> simp [stops, bind, Except.bind, throw, throwThe, MonadExceptOf.throw]

theorem bind_ok : first >>= next = .ok x ↔ ∃ y, first = .ok y ∧ next y = .ok x := by
  cases first <;> simp [bind, Except.bind]

end Checks

theorem firstRepeat?_none {α : Type} [DecidableEq α] {seen l : List α} :
    firstRepeat? seen l = none ↔ l.Nodup ∧ ∀ x ∈ l, x ∉ seen := by
  induction l generalizing seen with
  | nil => simp [firstRepeat?]
  | cons x l ih =>
    rw [firstRepeat?]
    split
    · rename_i old
      simp [old]
    · rename_i fresh
      rw [ih, List.nodup_cons]
      constructor
      · rintro ⟨distinct, apart⟩
        refine ⟨⟨fun again => apart x again (by simp), distinct⟩, fun y member => ?_⟩
        rcases List.mem_cons.mp member with rfl | later
        · exact fresh
        · exact fun old => apart y later (List.mem_cons_of_mem x old)
      · rintro ⟨⟨once, distinct⟩, apart⟩
        refine ⟨distinct, fun y later old => ?_⟩
        rcases List.mem_cons.mp old with rfl | before
        · exact once later
        · exact apart y (List.mem_cons_of_mem x later) before

namespace Cluster

theorem checkAttempts_ok {queues : List QueueName} {seen : List AttemptId} {specs : List AttemptSpec} :
    checkAttempts queues seen specs = .ok () ↔ (specs.map (·.id)).Nodup ∧
      ∀ spec ∈ specs, spec.id ∉ seen ∧ spec.queue ∈ queues := by
  induction specs generalizing seen with
  | nil => simp [checkAttempts]
  | cons spec specs ih =>
    rw [checkAttempts]
    split
    · rename_i old
      simp [old]
    · rename_i fresh
      split
      · rename_i unknown
        simp [unknown]
      · rename_i known
        rw [ih, List.map_cons, List.nodup_cons]
        constructor
        · rintro ⟨distinct, others⟩
          refine ⟨⟨fun again => ?_, distinct⟩, fun other member => ?_⟩
          · obtain ⟨other, later, same⟩ := List.mem_map.mp again
            exact (others other later).1 (by simp [same])
          · rcases List.mem_cons.mp member with rfl | later
            · exact ⟨fresh, Decidable.not_not.mp known⟩
            · obtain ⟨apart, queue⟩ := others other later
              exact ⟨fun old => apart (List.mem_cons_of_mem _ old), queue⟩
        · rintro ⟨⟨once, distinct⟩, others⟩
          refine ⟨distinct, fun other later => ?_⟩
          obtain ⟨apart, queue⟩ := others other (List.mem_cons_of_mem spec later)
          refine ⟨fun old => ?_, queue⟩
          rcases List.mem_cons.mp old with same | before
          · exact once (same ▸ List.mem_map_of_mem (f := (·.id)) later)
          · exact apart before

theorem checkNodes_ok {c : Cluster} : c.checkNodes = .ok () ↔ (c.nodes.map (·.id)).Nodup := by
  have checks := @firstRepeat?_none _ _ [] (c.nodes.map (·.id))
  unfold checkNodes
  split <;> simp_all

theorem checkQueues_ok {c : Cluster} : c.checkQueues = .ok () ↔ (c.queues.map (·.name)).Nodup := by
  have checks := @firstRepeat?_none _ _ [] (c.queues.map (·.name))
  unfold checkQueues
  split <;> simp_all

theorem validate_iff {c : Cluster} : c.validate = .ok () ↔
    c.scheduler.minimumAllocation.isZero = false ∧ c.simulation.workers ≠ 0 ∧
      c.nodes.isEmpty = false ∧ c.checkNodes = .ok () ∧ c.checkQueues = .ok () ∧
      checkAttempts (c.queues.map (·.name)) [] c.attempts = .ok () := by
  simp only [validate, check_ok, bind_ok, Bool.not_eq_true, Unique.exists_iff]

theorem validate_ok {c : Cluster} (valid : c.validate = .ok ()) :
    (c.nodes.map (·.id)).Nodup ∧ (c.attempts.map (·.id)).Nodup ∧
      ∀ spec ∈ c.attempts, spec.queue ∈ c.queues.map (·.name) := by
  obtain ⟨_, _, _, checked, _, listed⟩ := validate_iff.mp valid
  obtain ⟨distinct, checks⟩ := checkAttempts_ok.mp listed
  exact ⟨checkNodes_ok.mp checked, distinct, fun spec member => (checks spec member).2⟩

end Cluster

namespace World

theorem opening_addNodes {w : World} (opening : w.Opening) {l : List Node}
    (vacant : ∀ node ∈ l, node.slot = none) : (l.foldl addNode w).Opening := by
  induction l generalizing w with
  | nil => exact opening
  | cons node l ih =>
    exact ih (opening.addNode (vacant node (by simp))) fun other member =>
      vacant other (by simp [member])

theorem opening_addQueues {w : World} (opening : w.Opening) (names : List QueueName) :
    (names.foldl addQueue w).Opening := by
  induction names generalizing w with
  | nil => exact opening
  | cons name names ih => exact ih (opening.addQueue name)

theorem opening_addAttempts {w : World} (opening : w.Opening) {l : List Attempt}
    (ready : ∀ s ∈ l, s.Untouched ∧ (w.queues.get? s.queue).isSome) :
    (l.foldl addAttempt w).Opening := by
  induction l generalizing w with
  | nil => exact opening
  | cons s l ih =>
    obtain ⟨untouched, queue⟩ := ready s (by simp)
    exact ih (opening.addAttempt untouched queue) fun other member => ready other (by simp [member])

theorem queue_addQueues {w : World} {names : List QueueName} {q : QueueName}
    (known : q ∈ names ∨ (w.queues.get? q).isSome) :
    ((names.foldl addQueue w).queues.get? q).isSome := by
  induction names generalizing w with
  | nil => simpa using known
  | cons name names ih =>
    refine ih ?_
    simp only [addQueue, Table.lookup_insert]
    rcases known with member | old
    · rcases List.mem_cons.mp member with rfl | later
      · simp
      · exact .inl later
    · right
      split
      · rfl
      · exact old

theorem nodes_addAttempts (w : World) (l : List Attempt) :
    (l.foldl addAttempt w).nodes = w.nodes := by
  induction l generalizing w with
  | nil => rfl
  | cons s l ih => exact ih _

theorem nodes_addQueues (w : World) (names : List QueueName) :
    (names.foldl addQueue w).nodes = w.nodes := by
  induction names generalizing w with
  | nil => rfl
  | cons name names ih => exact ih _

theorem attempts_addNodes (w : World) (l : List Node) : (l.foldl addNode w).attempts = w.attempts := by
  induction l generalizing w with
  | nil => rfl
  | cons node l ih => exact ih _

theorem attempts_addQueues (w : World) (names : List QueueName) :
    (names.foldl addQueue w).attempts = w.attempts := by
  induction names generalizing w with
  | nil => rfl
  | cons name names ih => exact ih _

theorem attempt_addAttempts {w : World} {l : List Attempt} {a : AttemptId}
    (known : ((l.foldl addAttempt w).attempts.get? a).isSome) :
    a ∈ l.map (·.id) ∨ (w.attempts.get? a).isSome := by
  induction l generalizing w with
  | nil => exact .inr known
  | cons s l ih =>
    rcases ih known with later | here
    · exact .inl (List.mem_cons_of_mem _ later)
    · simp only [addAttempt, Table.lookup_insert] at here
      split at here
      · rename_i own
        exact .inl (by simp [own])
      · exact .inr here

theorem node_addNodes {w : World} {l : List Node} {n : NodeId} {node : Node}
    (found : (l.foldl addNode w).nodes.get? n = some node) :
    node ∈ l ∨ w.nodes.get? n = some node := by
  induction l generalizing w with
  | nil => exact .inr found
  | cons first l ih =>
    rcases ih found with later | here
    · exact .inl (List.mem_cons_of_mem _ later)
    · rw [addNode_nodes] at here
      split at here
      · exact .inl (by simp [Option.some.inj here])
      · exact .inr here

theorem nodes_addNodes (w : World) (l : List Node) :
    (l.foldl addNode w).nodes = w.nodes.enter (·.id) l := by
  induction l generalizing w with
  | nil => rfl
  | cons node l ih => exact ih _

theorem attempts_addAttempts (w : World) (l : List Attempt) :
    (l.foldl addAttempt w).attempts = w.attempts.enter (·.id) l := by
  induction l generalizing w with
  | nil => rfl
  | cons s l ih => exact ih _

theorem total_addNodes (w : World) (l : List Node) (f : Node → Nat) :
    ((l.foldl addNode w).nodes.values.map f).sum ≤ (w.nodes.values.map f).sum + (l.map f).sum := by
  induction l generalizing w with
  | nil => simp
  | cons node l ih =>
    have rest := ih (w.addNode node)
    have added := ((Table.values_insert w.nodes node.id node).map f).sum_eq
    have fewer : ((w.nodes.erase node.id).values.map f).sum ≤ (w.nodes.values.map f).sum :=
      ((List.filter_sublist.map _).map _).sum_le_sum fun _ _ => Nat.zero_le _
    simp only [List.map_cons, List.sum_cons] at added ⊢
    simp only [List.foldl_cons]
    have same : (w.addNode node).nodes = w.nodes.insert node.id node := rfl
    rw [same, added] at rest
    omega

end World

namespace Simulation

theorem attemptOf_untouched (c : Cluster) (cluster : Resource) (spec : AttemptSpec) :
    (attemptOf c cluster spec).Untouched ∧ (attemptOf c cluster spec).queue = spec.queue := by
  have fresh := Attempt.make_untouched spec.id spec.user spec.queue c.scheduler spec.amRequest 0
  unfold attemptOf
  dsimp only
  split <;>
    exact ⟨⟨fresh.live, fresh.undelivered, fresh.reservations, fresh.reReservations, fresh.marks,
      fresh.usage, fresh.launch, fresh.amAllocated⟩, rfl⟩

theorem attemptOf_id (c : Cluster) (cluster : Resource) (spec : AttemptSpec) :
    (attemptOf c cluster spec).id = spec.id := by
  unfold attemptOf
  dsimp only
  split <;> rfl

def ground (c : Cluster) : World :=
  (c.queues.map (·.name)).foldl World.addQueue ((c.nodes.map nodeOf).foldl World.addNode {})

theorem ground_nodes (c : Cluster) :
    (ground c).nodes = ((c.nodes.map nodeOf).foldl World.addNode {}).nodes :=
  World.nodes_addQueues _ _

theorem ground_queues {c : Cluster} {q : QueueName} (listed : q ∈ c.queues.map (·.name)) :
    ((ground c).queues.get? q).isSome :=
  World.queue_addQueues (.inl listed)

theorem attemptOn_all {c : Cluster} {w : World} {specs : List AttemptSpec}
    (known : ∀ spec ∈ specs, (w.queues.get? spec.queue).isSome) :
    specs.mapM (attemptOn c w) = .ok (specs.map (attemptOf c w.clusterResource)) := by
  induction specs with
  | nil => rfl
  | cons spec specs ih =>
    have first : attemptOn c w spec = .ok (attemptOf c w.clusterResource spec) :=
      if_pos (known spec (by simp))
    rw [List.mapM_cons, first, ih fun other member => known other (by simp [member])]
    rfl

theorem build_eq {c : Cluster} (valid : c.validate = .ok ()) : build c = .ok {
    settings := c.simulation
    world := (c.attempts.map (attemptOf c (ground c).clusterResource)).foldl World.addAttempt (ground c)
    order := c.attempts.map (·.id) } := by
  obtain ⟨_, _, queues⟩ := Cluster.validate_ok valid
  have made : c.attempts.mapM (attemptOn c (ground c)) = _ :=
    attemptOn_all fun spec listed => ground_queues (queues spec listed)
  rw [ground] at made
  simp only [build, valid, bind, Except.bind, made]
  rfl

theorem build_opening {c : Cluster} (valid : c.validate = .ok ()) :
    ∃ sim, build c = .ok sim ∧ sim.world.Opening ∧
      (∀ spec ∈ c.nodes, sim.world.nodes.get? spec.id = some (nodeOf spec)) ∧
      (∀ n node, sim.world.nodes.get? n = some node → node.claimed = .zero) ∧
      ∀ d : Resource → Nat, (sim.world.nodes.values.map fun node => d node.total).sum ≤
        (c.nodes.map fun spec => d spec.total).sum := by
  obtain ⟨distinct, _, queues⟩ := Cluster.validate_ok valid
  have nodes : ((c.attempts.map (attemptOf c (ground c).clusterResource)).foldl World.addAttempt
      (ground c)).nodes = ((c.nodes.map nodeOf).foldl World.addNode {}).nodes := by
    rw [World.nodes_addAttempts, ground_nodes]
  refine ⟨_, build_eq valid, ?_, ?_, ?_, ?_⟩
  · refine World.opening_addAttempts ?_ ?_
    · refine World.opening_addQueues (World.opening_addNodes World.opening_empty ?_) _
      intro node member
      obtain ⟨spec, _, rfl⟩ := List.mem_map.mp member
      rfl
    · intro s member
      obtain ⟨spec, listed, rfl⟩ := List.mem_map.mp member
      obtain ⟨untouched, queue⟩ := attemptOf_untouched c (ground c).clusterResource spec
      refine ⟨untouched, ?_⟩
      rw [queue]
      exact ground_queues (queues spec listed)
  · intro spec listed
    rw [nodes, World.nodes_addNodes]
    refine Table.enter_own ?_ (List.mem_map_of_mem (f := nodeOf) listed)
    rw [List.map_map]
    exact distinct
  · intro n node found
    rw [nodes] at found
    rcases World.node_addNodes found with member | none
    · obtain ⟨spec, _, rfl⟩ := List.mem_map.mp member
      rfl
    · simp at none
  · intro d
    have bound := World.total_addNodes {} (c.nodes.map nodeOf) fun node => d node.total
    rw [List.map_map] at bound
    rw [nodes]
    refine bound.trans (Nat.le_of_eq ?_)
    exact Nat.zero_add _

theorem build_order {c : Cluster} {sim : Simulation} (valid : c.validate = .ok ())
    (built : build c = .ok sim) : sim.order.Nodup ∧
      (∀ a, (sim.world.attempts.get? a).isSome → a ∈ sim.order) ∧ sim.nextContainer = 1 := by
  obtain ⟨_, distinct, _⟩ := Cluster.validate_ok valid
  obtain rfl := Except.ok.inj ((build_eq valid).symm.trans built)
  refine ⟨distinct, fun a known => ?_, rfl⟩
  rcases World.attempt_addAttempts known with described | there
  · simpa [attemptOf_id] using described
  · simp [ground, World.attempts_addQueues, World.attempts_addNodes] at there

end Simulation
end ClusterLedger
