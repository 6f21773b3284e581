import ClusterLedger.Proofs.History
import ClusterLedger.Proofs.Slots
import ClusterLedger.Proofs.Tenants
import ClusterLedger.Simulation
import Mathlib.Algebra.Order.BigOperators.Group.List
import Mathlib.Algebra.Order.Ring.Nat
/- Claims on nodes against the containers that run there. A pass claims a node before the attempt
   decides, and a container that ends leaves its claim for the pass to give back, so between the two
   one claim stands that no container accounts for. -/
namespace ClusterLedger

def Node.site (node : Node) : Partition × Resource := (node.partition, node.total)

def claimOn (n : NodeId) (r : Resource) (m : NodeId) (d : Dimension) : Nat :=
  if m = n then r.amount d else 0

theorem amount_le_occupied {names : List NodeId} (d : Dimension) (l : List Tenant)
    (named : ∀ t ∈ l, t.node ∈ names) :
    (l.map (·.resource.amount d)).sum ≤ (names.map fun n => occupied l n d).sum := by
  induction l with
  | nil => simp
  | cons t l ih =>
    have rest := ih fun t' member => named t' (by simp [member])
    have own : t.resource.amount d ∈
        names.map fun n => if n = t.node then t.resource.amount d else 0 :=
      List.mem_map.mpr ⟨t.node, named t (by simp), by simp⟩
    have first := List.le_sum_of_mem own
    simp only [occupied_cons, List.map_cons, List.sum_cons, List.sum_map_add]
    omega

namespace World

/-- Every claim is a running container's or pending, no node is claimed beyond its total, and every
    container runs on a node of the partition on its record. -/
structure Seated (nodes : Table NodeId Node) (w : World) (pending : NodeId → Dimension → Nat) :
    Prop where
  sound : w.Sound
  sites : ∀ n, (w.nodes.get? n).map Node.site = (nodes.get? n).map Node.site
  claims : ∀ n node, w.nodes.get? n = some node → ∀ d,
    node.claimed.amount d = occupied w.tenants n d + pending n d
  room : ∀ n node, w.nodes.get? n = some node → ∀ d,
    node.claimed.amount d ≤ node.total.amount d
  placed : ∀ t ∈ w.tenants, (w.nodes.get? t.node).map (·.partition) = some t.partition

/-- Where the node totals fit, queues show under `used` what their tenants take. -/
structure Housed (nodes : Table NodeId Node) (w : World) (pending : NodeId → Dimension → Nat) :
    Prop extends Seated nodes w pending where
  used : ∀ d, (nodes.values.map (·.total.amount d)).sum ≤ d.capacity → ∀ q p r,
    w.used? q p = some r → r.amount d = usedBy w.tenants q p d

variable {nodes : Table NodeId Node} {w w' : World} {pending : NodeId → Dimension → Nat}

theorem Seated.bounded (seated : Seated nodes w pending) (q : QueueName) (p : Partition)
    (d : Dimension) : usedBy w.tenants q p d ≤ (nodes.values.map (·.total.amount d)).sum := by
  have all : usedBy w.tenants q p d ≤ (w.tenants.map (·.resource.amount d)).sum :=
    (List.filter_sublist.map _).sum_le_sum fun _ _ => Nat.zero_le _
  have known : ∀ t ∈ w.tenants, t.node ∈ nodes.entries.map (·.1) := by
    intro t member
    obtain ⟨node, found, _⟩ := Option.map_eq_some_iff.mp (seated.placed t member)
    have same := seated.sites t.node
    rw [found, Option.map_some] at same
    obtain ⟨old, there, _⟩ := Option.map_eq_some_iff.mp same.symm
    exact List.mem_map.mpr ⟨(t.node, old), Table.mem_entries.mpr there, rfl⟩
  have spread := amount_le_occupied d w.tenants known
  have each : ((nodes.entries.map (·.1)).map fun n => occupied w.tenants n d).sum ≤
      (nodes.values.map (·.total.amount d)).sum := by
    rw [Table.values, List.map_map, List.map_map]
    refine List.sum_le_sum fun e member => ?_
    obtain ⟨n, old⟩ := e
    have same := seated.sites n
    rw [Table.mem_entries.mp member, Option.map_some] at same
    obtain ⟨node, found, site⟩ := Option.map_eq_some_iff.mp same
    have total : node.total = old.total := congrArg Prod.snd site
    have claimed := seated.claims n node found d
    have room := seated.room n node found d
    rw [total] at room
    simp only [Function.comp_apply]
    omega
  omega

theorem Unmoved.node (unmoved : Unmoved w w') {n : NodeId} {node' : Node}
    (found : w'.nodes.get? n = some node') :
    ∃ node, w.nodes.get? n = some node ∧ node'.claimed = node.claimed ∧
      node'.total = node.total := by
  have same := unmoved n
  rw [found, Option.map_some] at same
  obtain ⟨node, there, cleared⟩ := Option.map_eq_some_iff.mp same.symm
  simp only [Node.cleared, Node.mk.injEq] at cleared
  exact ⟨node, there, cleared.2.2.2.2.1.symm, cleared.2.2.2.1.symm⟩

theorem Housed.quiet (housed : Housed nodes w pending) {c : Call} (quiet : c.Quiet) :
    Housed nodes (w.perform c) pending := by
  have unmoved := unmoved_quiet (fun _ _ => housed.sound.nodeNamed) quiet
  obtain ⟨tenants, used⟩ := beside_quiet housed.sound quiet
  refine ⟨⟨housed.sound.perform c, ?_, ?_, ?_, ?_⟩, ?_⟩
  · intro n
    have same := congrArg (Option.map Node.site) (unmoved n)
    simp only [Option.map_map] at same
    exact same.trans (housed.sites n)
  · intro n node' found d
    obtain ⟨node, there, claimed, _⟩ := unmoved.node found
    rw [claimed, occupied_perm tenants]
    exact housed.claims n node there d
  · intro n node' found d
    obtain ⟨node, there, claimed, total⟩ := unmoved.node found
    rw [claimed, total]
    exact housed.room n node there d
  · intro t member
    have same := congrArg (Option.map Node.partition) (unmoved t.node)
    simp only [Option.map_map] at same
    exact same.trans (housed.placed t (tenants.mem_iff.mp member))
  · intro d fits q p r shown
    rw [usedBy_perm tenants]
    exact housed.used d fits q p r (used q p ▸ shown)

theorem Housed.claim {n : NodeId} {node claimed : Node} {r : Resource}
    (housed : Housed nodes w fun _ _ => 0) (there : w.nodes.get? n = some node)
    (answer : node.claim? r = some claimed) :
    Housed nodes (w.addNode claimed) (claimOn n r) := by
  unfold Node.claim? at answer
  split at answer
  · rename_i fits
    obtain rfl := Option.some.inj answer
    have named := housed.sound.nodeNamed there
    have grown : ∀ d, (node.claimed + r).amount d = node.claimed.amount d + r.amount d ∧
        node.claimed.amount d + r.amount d ≤ node.total.amount d := by
      intro d
      have room := housed.room n node there d
      have free := Resource.fitsIn_iff.mp fits d
      have within := node.total.amount_le_capacity d
      rw [Node.available, Resource.amount_sub] at free
      rw [Resource.amount_add]
      omega
    have performed : w.addNode { node with claimed := node.claimed + r } = w.perform (.claim n r) := by
      simp only [perform, World.updateNode, Table.modify, there, Node.claim?, fits, ↓reduceIte,
        Option.getD_some, World.addNode, named]
    refine ⟨⟨performed ▸ housed.sound.perform _, ?_, ?_, ?_, ?_⟩, housed.used⟩
    · intro m
      rw [addNode_nodes, ← housed.sites m]
      split
      · rename_i here
        rw [here, named, there]
        rfl
      · rfl
    · intro m node' found d
      rw [addNode_nodes] at found
      simp only [claimOn]
      split at found
      · rename_i here
        obtain rfl := Option.some.inj found
        rw [if_pos (here.trans named), (grown d).1, housed.claims n node there d, here, named]
        rfl
      · rename_i other
        rw [if_neg fun same => other (same.trans named.symm)]
        exact housed.claims m node' found d
    · intro m node' found d
      rw [addNode_nodes] at found
      split at found
      · obtain rfl := Option.some.inj found
        rw [(grown d).1]
        exact (grown d).2
      · exact housed.room m node' found d
    · intro t member
      rw [addNode_nodes]
      split
      · rename_i here
        have placed := housed.placed t member
        rw [here, named, there] at placed
        exact placed
      · exact housed.placed t member
  · simp at answer

theorem Housed.release {n : NodeId} {r : Resource} (housed : Housed nodes w (claimOn n r)) :
    Housed nodes (w.updateNode n (·.release r)) fun _ _ => 0 := by
  have keeps : ∀ m (f : Node → Partition × Resource), (∀ node, f (node.release r) = f node) →
      ((w.updateNode n (·.release r)).nodes.get? m).map f = (w.nodes.get? m).map f := by
    intro m f same
    rw [updateNode_nodes]
    split
    · rename_i here
      rw [here, Option.map_map]
      congr 1
      exact funext same
    · rfl
  have left : ∀ m node', (w.updateNode n (·.release r)).nodes.get? m = some node' → ∀ d,
      node'.claimed.amount d = occupied w.tenants m d ∧
        node'.claimed.amount d ≤ node'.total.amount d := by
    intro m node' found d
    rw [updateNode_nodes] at found
    split at found
    · rename_i here
      obtain ⟨node, there, rfl⟩ := Option.map_eq_some_iff.mp found
      have claims := housed.claims n node there d
      have room := housed.room n node there d
      rw [claimOn, if_pos rfl] at claims
      rw [here]
      simp only [Node.release, Resource.amount_sub]
      omega
    · rename_i other
      have claims := housed.claims m node' found d
      rw [claimOn, if_neg other] at claims
      exact ⟨claims, housed.room m node' found d⟩
  refine ⟨⟨housed.sound.perform (.release n r), ?_, fun m node' found d => (left m node' found d).1,
    fun m node' found d => (left m node' found d).2, ?_⟩, housed.used⟩
  · intro m
    exact (keeps m Node.site fun _ => rfl).trans (housed.sites m)
  · intro t member
    have same := congrArg (Option.map Prod.fst) (keeps t.node Node.site fun _ => rfl)
    simp only [Option.map_map] at same
    exact same.trans (housed.placed t member)

theorem get_enter (u : Usage) (x p : Partition) (r : Record) : (u.enter x r).get .used p =
    if p = x then u.get .used x + r.resource else u.get .used p := by
  unfold Usage.enter
  split <;> simp [Usage.get_increase]

theorem get_leave (u : Usage) (x p : Partition) (r : Record) : (u.leave x r).get .used p =
    if p = x then u.get .used x - r.resource else u.get .used p := by
  unfold Usage.leave
  split <;> simp [Usage.get_decrease]

variable {a : AttemptId} {s s' : Attempt} {r : RecordId} {record : Record}

theorem Housed.begins {n : NodeId} {node : Node}
    (housed : Housed nodes w (claimOn n record.resource)) (there : w.nodes.get? n = some node)
    (step : Begins w w' a s s' r record) (site : record.node = n)
    (label : record.partition = node.partition) : Housed nodes w' fun _ _ => 0 := by
  have tenants := housed.sound.tenants_begins step
  have seated : Seated nodes w' fun _ _ => 0 := by
    refine ⟨housed.sound.begins step, fun m => step.nodes ▸ housed.sites m, ?_, ?_, ?_⟩
    · intro m node' found d
      rw [step.nodes] at found
      rw [occupied_perm tenants, occupied_cons, housed.claims m node' found d, claimOn]
      simp only [Record.tenant, site]
      omega
    · intro m node' found d
      exact housed.room m node' (step.nodes ▸ found) d
    · intro t member
      rw [step.nodes]
      rcases List.mem_cons.mp (tenants.mem_iff.mp member) with rfl | old
      · simp [Record.tenant, site, there, label]
      · exact housed.placed t old
  refine ⟨seated, fun d fits q p shown found => ?_⟩
  -- The new container is a tenant already, so the sum that the queue comes to show is bounded.
  have bounded := seated.bounded q p d
  rw [usedBy_perm tenants, usedBy_cons] at bounded ⊢
  rw [step.toTurn.used?] at found
  by_cases own : q = s.queue
  · rw [if_pos own] at found
    obtain ⟨queue, before, rfl⟩ := Option.map_eq_some_iff.mp found
    have was := housed.used d fits q p (queue.usage.get .used p) (by simp [used?, own, before])
    rw [get_enter]
    by_cases here : p = record.partition
    · have within := (queue.usage.get .used record.partition).amount_le_capacity d
      rw [if_pos here, Resource.amount_add, ← here, was]
      simp only [Record.tenant, own, here, and_self, ↓reduceIte] at bounded ⊢
      omega
    · rw [if_neg here, was]
      simp [Record.tenant, here]
  · rw [if_neg own] at found
    rw [housed.used d fits q p shown found]
    simp [Record.tenant, own]

theorem Housed.ends {c : ContainerId} {report : ExitReport} {ending : Ending}
    (housed : Housed nodes w fun _ _ => 0)
    (step : Ends w w' a s s' c r (w.record r).partition report ending) :
    Housed nodes w' (claimOn (w.record r).node (w.record r).resource) := by
  have tenants := housed.sound.tenants_ends step
  refine ⟨⟨housed.sound.ends step, fun m => step.nodes ▸ housed.sites m, ?_, ?_, ?_⟩, ?_⟩
  · intro m node' found d
    rw [step.nodes] at found
    have claims := housed.claims m node' found d
    rw [occupied_perm tenants, occupied_cons, Nat.add_zero, Nat.add_comm] at claims
    exact claims
  · intro m node' found d
    exact housed.room m node' (step.nodes ▸ found) d
  · intro t member
    rw [step.nodes]
    exact housed.placed t (tenants.mem_iff.mpr (List.mem_cons_of_mem _ member))
  · intro d fits q p shown found
    rw [step.toTurn.used?] at found
    by_cases own : q = s.queue
    · rw [if_pos own] at found
      obtain ⟨queue, before, rfl⟩ := Option.map_eq_some_iff.mp found
      have was := housed.used d fits q p (queue.usage.get .used p) (by simp [used?, own, before])
      rw [usedBy_perm tenants, usedBy_cons] at was
      rw [get_leave]
      by_cases here : p = (w.record r).partition
      · rw [if_pos here, Resource.amount_sub, ← here, was]
        simp only [Record.tenant, own, here, and_self, ↓reduceIte]
        omega
      · rw [if_neg here, was]
        simp [Record.tenant, here]
    · rw [if_neg own] at found
      rw [housed.used d fits q p shown found, usedBy_perm tenants, usedBy_cons]
      simp [Record.tenant, own]

end World
end ClusterLedger
