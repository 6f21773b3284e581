import ClusterLedger.Proofs.Outcome
import ClusterLedger.Proofs.Amount
import Mathlib.Algebra.Order.Ring.Nat
/- Live containers as their nodes and queues see them, all attempts together: which call adds one,
   which takes one away, and that no other call changes any. -/
namespace ClusterLedger

structure Tenant where
  queue : QueueName
  node : NodeId
  partition : Partition
  resource : Resource
deriving DecidableEq, Repr

def Record.tenant (r : Record) (q : QueueName) : Tenant := ⟨q, r.node, r.partition, r.resource⟩

@[simp] theorem Record.acquire_tenant (r : Record) (q : QueueName) :
    r.acquire.tenant q = r.tenant q := by
  unfold acquire
  split <;> rfl

def occupied (tenants : List Tenant) (n : NodeId) (d : Dimension) : Nat :=
  ((tenants.filter (·.node == n)).map (·.resource.amount d)).sum

def usedBy (tenants : List Tenant) (q : QueueName) (p : Partition) (d : Dimension) : Nat :=
  ((tenants.filter fun t => t.queue == q && t.partition == p).map (·.resource.amount d)).sum

theorem occupied_perm {l l' : List Tenant} (same : l.Perm l') (n : NodeId) (d : Dimension) :
    occupied l n d = occupied l' n d :=
  ((same.filter _).map _).sum_eq

theorem usedBy_perm {l l' : List Tenant} (same : l.Perm l') (q : QueueName) (p : Partition)
    (d : Dimension) : usedBy l q p d = usedBy l' q p d :=
  ((same.filter _).map _).sum_eq

theorem occupied_cons (t : Tenant) (l : List Tenant) (n : NodeId) (d : Dimension) :
    occupied (t :: l) n d = (if n = t.node then t.resource.amount d else 0) + occupied l n d := by
  by_cases here : n = t.node
  · simp [occupied, here]
  · simp [occupied, here, Ne.symm here]

theorem usedBy_cons (t : Tenant) (l : List Tenant) (q : QueueName) (p : Partition) (d : Dimension) :
    usedBy (t :: l) q p d =
      (if q = t.queue ∧ p = t.partition then t.resource.amount d else 0) + usedBy l q p d := by
  by_cases here : q = t.queue ∧ p = t.partition
  · simp [usedBy, here]
  · have apart : (t.queue == q && t.partition == p) = false := by
      simp only [Bool.and_eq_false_iff, beq_eq_false_iff_ne]
      by_contra both
      simp only [not_or, ne_eq, Decidable.not_not] at both
      exact here ⟨both.1.symm, both.2.symm⟩
    simp [usedBy, here, apart]

def Node.cleared (node : Node) : Node := { node with slot := none }

namespace World

def tenantsOf (w : World) (s : Attempt) : List Tenant :=
  s.live.values.map fun r => (w.record r).tenant s.queue

def tenants (w : World) : List Tenant := w.attempts.values.flatMap w.tenantsOf

variable {w w' : World} {a : AttemptId} {s s' t : Attempt} {r : RecordId}
  {postings : Usage → Usage} {notes : QueueMetrics → QueueMetrics}

/-- A change of one attempt changes the tenants by that attempt's own. -/
theorem Turn.tenants (turn : Turn w w' a s s' postings notes)
    (others : ∀ b t, b ≠ a → w.attempts.get? b = some t → w'.tenantsOf t = w.tenantsOf t) :
    ∃ rest, w.tenants.Perm (w.tenantsOf s ++ rest) ∧ w'.tenants.Perm (w'.tenantsOf s' ++ rest) := by
  obtain ⟨kept, before, after, elsewhere⟩ := Table.values_change turn.before turn.attempts
  have same : kept.flatMap w'.tenantsOf = kept.flatMap w.tenantsOf := by
    refine List.flatMap_congr fun t member => ?_
    obtain ⟨b, apart, found⟩ := elsewhere t member
    exact others b t apart found
  refine ⟨kept.flatMap w.tenantsOf, ?_, ?_⟩
  · exact before.flatMap_right _
  · rw [← same]
    exact after.flatMap_right _

def KeepsTenants (w w' : World) : Prop :=
  ∀ b c x, w.running? b c = some x → ∀ q, (w'.record x).tenant q = (w.record x).tenant q

theorem keeps_records (records : ∀ x, w'.record x = w.record x) : w.KeepsTenants w' :=
  fun _ _ x _ q => congrArg (·.tenant q) (records x)

theorem running_of_value {b : AttemptId} {x : RecordId} (found : w.attempts.get? b = some t)
    (member : x ∈ t.live.values) : ∃ c, w.running? b c = some x := by
  obtain ⟨c, at_⟩ := Table.mem_values.mp member
  exact ⟨c, by simp [running?, found, at_]⟩

theorem KeepsTenants.tenantsOf (keeps : w.KeepsTenants w') {b : AttemptId}
    (found : w.attempts.get? b = some t) : w'.tenantsOf t = w.tenantsOf t := by
  refine List.map_congr_left fun x member => ?_
  obtain ⟨c, runs⟩ := running_of_value found member
  exact keeps b c x runs t.queue

theorem Turn.tenants_same (turn : Turn w w' a s s' postings notes) (live : s'.live = s.live)
    (keeps : w.KeepsTenants w') : w'.tenants.Perm w.tenants := by
  obtain ⟨rest, before, after⟩ := turn.tenants fun b t _ found => keeps.tenantsOf found
  have own : w'.tenantsOf s' = w.tenantsOf s := by
    rw [← keeps.tenantsOf turn.before]
    simp only [World.tenantsOf, live, turn.queue]
  exact (own ▸ after).trans before.symm

theorem Sound.tenants_begins {record : Record} (sound : w.Sound)
    (step : Begins w w' a s s' r record) :
    w'.tenants.Perm (record.tenant s.queue :: w.tenants) := by
  have others := record_other step.records
  have keeps : w.KeepsTenants w' := by
    intro b c x runs q
    have apart : x ≠ r := by
      rintro rfl
      exact step.fresh (sound.runs runs).1
    rw [others x apart]
  obtain ⟨rest, before, after⟩ := step.tenants fun b t _ found => keeps.tenantsOf found
  have own : (w'.tenantsOf s').Perm (record.tenant s.queue :: w.tenantsOf s) := by
    have grown := (Table.values_insert_new r step.idFree).map fun x => (w'.record x).tenant s.queue
    rw [List.map_cons, record_own step.records] at grown
    rw [← keeps.tenantsOf step.before]
    simpa only [World.tenantsOf, step.live, step.queue] using grown
  exact after.trans ((own.append_right rest).trans (before.symm.cons _))

theorem Sound.tenants_ends {c : ContainerId} {partition : Partition} {report : ExitReport}
    {ending : Ending} (sound : w.Sound) (step : Ends w w' a s s' c r partition report ending) :
    w.tenants.Perm ((w.record r).tenant s.queue :: w'.tenants) := by
  have others := record_other step.records
  have runs := (step.running?_before c).trans step.found
  obtain ⟨rest, before, after⟩ := step.tenants fun b t apart found => by
    refine List.map_congr_left fun x member => ?_
    obtain ⟨c', runs'⟩ := running_of_value found member
    have other : x ≠ r := by
      rintro rfl
      exact apart (sound.name_unique runs' runs).1
    rw [others x other]
  have own : (w.tenantsOf s).Perm ((w.record r).tenant s.queue :: w'.tenantsOf s') := by
    have left : w'.tenantsOf s' = (s.live.erase c).values.map fun x =>
        (w.record x).tenant s.queue := by
      simp only [World.tenantsOf, step.live, step.queue]
      refine List.map_congr_left fun x member => ?_
      obtain ⟨c', at_⟩ := Table.mem_values.mp member
      rw [Table.lookup_erase] at at_
      split at at_
      · simp at at_
      · rename_i other
        have apart : x ≠ r := by
          rintro rfl
          refine other (sound.name_unique (x := a) (y := a) ?_ runs).2
          exact (step.running?_before c').trans at_
        rw [others x apart]
    rw [left]
    exact (Table.values_of_get? step.found).map fun x => (w.record x).tenant s.queue
  exact before.trans ((own.append_right rest).trans (after.symm.cons _))

def used? (w : World) (q : QueueName) (p : Partition) : Option Resource :=
  (w.queues.get? q).map (·.usage.get .used p)

theorem Turn.used? (turn : Turn w w' a s s' postings notes) (q : QueueName) (p : Partition) :
    w'.used? q p = if q = s.queue then
      (w.queues.get? s.queue).map fun queue => (postings queue.usage).get .used p
    else w.used? q p := by
  simp only [World.used?, turn.queues]
  split
  · simp [Function.comp_def]
  · rfl

theorem Turn.used?_same (turn : Turn w w' a s s' postings notes)
    (kept : ∀ u p, (postings u).get .used p = u.get .used p) (q : QueueName) (p : Partition) :
    w'.used? q p = w.used? q p := by
  rw [turn.used?]
  split
  · rename_i own
    simp only [kept, own, World.used?]
  · rfl

structure Beside (w w' : World) : Prop where
  tenants : w'.tenants.Perm w.tenants
  used : ∀ q p, w'.used? q p = w.used? q p

theorem Turn.beside (turn : Turn w w' a s s' postings notes) (live : s'.live = s.live)
    (keeps : w.KeepsTenants w') (kept : ∀ u p, (postings u).get .used p = u.get .used p) :
    Beside w w' :=
  ⟨turn.tenants_same live keeps, turn.used?_same kept⟩

theorem beside_lapses {b : Berth} (step : Lapses w w' a s s' b r) : Beside w w' :=
  step.beside step.live (keeps_records step.records) fun u p => by simp [Usage.get_decrease]

theorem Sound.beside_reserves {b : Berth} {node : Node} {record : Record} (sound : w.Sound)
    (step : Reserves w w' a s s' b node r record) : Beside w w' := by
  refine step.beside step.live (fun _ _ x runs q => ?_) fun u p => by simp [Usage.get_increase]
  have apart : x ≠ r := by
    rintro rfl
    exact step.fresh (sound.runs runs).1
  rw [record_other step.records x apart]

/-- A record that stands in an index is no tenant, whatever becomes of it. -/
theorem Sound.keeps_beside_index {b : Berth} (sound : w.Sound) (stands : w.reservation? a b = some r)
    (records : ∀ x, x ≠ r → w'.record x = w.record x) : w.KeepsTenants w' := by
  intro x c y runs q
  have apart : y ≠ r := by
    rintro rfl
    exact sound.apart stands runs
  rw [records y apart]

theorem beside_delivers (step : Delivers w w' a s s') : Beside w w' := by
  refine step.beside step.live (fun _ _ x _ q => ?_) fun _ _ => rfl
  rw [step.records]
  split
  · exact (w.record x).acquire_tenant q
  · rfl

theorem beside_tends (step : Tends w w') : Beside w w' where
  tenants := by
    have same : ∀ t, w'.tenantsOf t = w.tenantsOf t := fun t =>
      List.map_congr_left fun x _ => congrArg (·.tenant t.queue) (step.records x)
    rw [World.tenants, World.tenants, step.attempts, funext same]
  used q p := by
    simp only [World.used?, step.queues]

end World

/-- Nothing begins, ends or is relabelled in the call, and no node changes its label or its claims. -/
def Call.Quiet : Call → Prop
  | .allocate .. | .complete .. | .relabel .. | .setPartition .. | .claim .. | .release .. => False
  | _ => True

namespace World
variable {w w' : World}

theorem beside_quiet (sound : w.Sound) {c : Call} (quiet : c.Quiet) : Beside w (w.perform c) := by
  have outcome := outcome sound c
  generalize w.perform c = w' at *
  cases outcome with
  | begins step => exact quiet.elim
  | ends step => exact quiet.elim
  | relabels step => exact quiet.elim
  | reserves step => exact sound.beside_reserves step
  | displaces same first second =>
    have one := beside_lapses first
    have two := (sound.lapses first).beside_reserves second
    exact ⟨two.tenants.trans one.tenants, fun q p => (two.used q p).trans (one.used q p)⟩
  | resizes idFree step =>
    have stands := (step.reservation?_before _).trans step.found
    refine step.beside step.live (sound.keeps_beside_index stands (record_other step.records))
      fun u p => ?_
    simp [Usage.get_increase, Usage.get_decrease]
  | lapses step => exact beside_lapses step
  | moves step =>
    have stands := (step.reservation?_before _).trans step.found
    exact step.beside step.live (sound.keeps_beside_index stands (record_other step.records))
      fun _ _ => rfl
  | delivers step => exact beside_delivers step
  | notes _ _ step => exact step.toTurn.beside step.live (keeps_records step.records) fun _ _ => rfl
  | tends _ step => exact beside_tends step

def Unmoved (w w' : World) : Prop :=
  ∀ n, (w'.nodes.get? n).map Node.cleared = (w.nodes.get? n).map Node.cleared

theorem unmoved_of_nodes (same : w'.nodes = w.nodes) : Unmoved w w' := fun n => by rw [same]

theorem Unmoved.addNode {m : World} (unmoved : Unmoved w m) {node filled : Node}
    (offered : m.nodes.get? filled.id = some node) (same : filled.cleared = node.cleared) :
    Unmoved w (m.addNode filled) := by
  intro n
  rw [addNode_nodes]
  split
  · rename_i here
    rw [← unmoved n, here, offered, Option.map_some, Option.map_some, same]
  · exact unmoved n

theorem Unmoved.updateNode {m : World} (unmoved : Unmoved w m) (n : NodeId) {f : Node → Node}
    (same : ∀ node, (f node).cleared = node.cleared) : Unmoved w (m.updateNode n f) := by
  intro k
  rw [updateNode_nodes]
  split
  · rename_i here
    rw [← unmoved k, here, Option.map_map]
    congr 1
    exact funext same
  · exact unmoved k

theorem vacate_cleared (r : RecordId) (node : Node) : (node.vacate r).cleared = node.cleared := by
  unfold Node.vacate
  split <;> rfl

theorem reserve_cleared {node filled : Node} {a : AttemptId} {priority : Priority} {r : RecordId}
    {displaced : Option Slot} (filling : node.reserve a priority r = .ok (displaced, filled)) :
    filled.id = node.id ∧ filled.cleared = node.cleared := by
  unfold Node.reserve at filling
  split at filling
  · obtain ⟨_, rfl⟩ := Prod.mk.inj (Except.ok.inj filling)
    exact ⟨rfl, rfl⟩
  · split at filling
    · obtain ⟨_, rfl⟩ := Prod.mk.inj (Except.ok.inj filling)
      exact ⟨rfl, rfl⟩
    · simp at filling

theorem unmoved_fill {a : AttemptId} {priority : Priority} {r : RecordId} {displaced : Option Slot}
    {n : NodeId} {node filled : Node} {w' : World} (offered : w.nodes.get? n = some node)
    (filed : node.id = n) (filling : node.reserve a priority r = .ok (displaced, filled))
    (nodes : w'.nodes = (w.addNode filled).nodes) : Unmoved w w' := by
  obtain ⟨named, same⟩ := reserve_cleared filling
  intro k
  rw [nodes]
  refine (unmoved_of_nodes (w := w) rfl).addNode ?_ same k
  rw [named, filed]
  exact offered

theorem unmoved_reserve (filed : ∀ n node, w.nodes.get? n = some node → node.id = n) (a : AttemptId)
    (priority : Priority) (n : NodeId) (existing : Option RecordId) (c : Container) :
    Unmoved w (w.perform (.reserve a priority n existing c)) := by
  cases answer : w.reserve a priority n existing c with
  | error e =>
    rw [perform_refused answer]
    exact unmoved_of_nodes rfl
  | ok result =>
    obtain ⟨r, w'⟩ := result
    rw [perform_reserved answer]
    obtain ⟨s, node, _, offered, _, made⟩ := reserve_made answer
    rcases made with fresh | ⟨old, _, again⟩
    · obtain ⟨record, filled, _, rfl, filling, rfl⟩ := reserveFresh_made fresh
      exact unmoved_fill offered (filed n node offered) filling
        (retireDisplaced_nodes _ _ _)
    · obtain ⟨rfl, filled, filling, rfl⟩ := reserveAgain_made again
      exact unmoved_fill offered (filed n node offered) filling
        (retireDisplaced_nodes _ _ _)

theorem unmoved_move (filed : ∀ n node, w.nodes.get? n = some node → node.id = n) (a : AttemptId)
    (r : RecordId) (source target : NodeId) : Unmoved w (w.perform (.move a r source target)) := by
  simp only [perform, moveReservation]
  split
  · rename_i s sourceNode targetNode _ _ wanted
    split
    · exact unmoved_of_nodes rfl
    · split
      · split
        · exact unmoved_of_nodes rfl
        · rename_i filled vacant
          have copy : filled.id = target ∧ filled.cleared = targetNode.cleared := by
            unfold Node.reserveVacant at vacant
            split at vacant
            · rw [← Except.ok.inj vacant, ← filed target targetNode wanted]
              exact ⟨rfl, rfl⟩
            · simp at vacant
          exact ((unmoved_of_nodes rfl).addNode (copy.1 ▸ wanted) copy.2).updateNode source
            (vacate_cleared r)
      · exact unmoved_of_nodes rfl
  · exact unmoved_of_nodes rfl

theorem acquire_nodes (l : List RecordId) (w : World) :
    (l.foldl (fun w r => w.updateRecord r (·.acquire)) w).nodes = w.nodes := by
  induction l generalizing w with
  | nil => rfl
  | cons r l ih => exact ih _

theorem unmoved_quiet (filed : ∀ n node, w.nodes.get? n = some node → node.id = n) {c : Call}
    (quiet : c.Quiet) : Unmoved w (w.perform c) := by
  cases c with
  | reserve a priority n existing c => exact unmoved_reserve filed a priority n existing c
  | unreserve a priority n =>
    simp only [perform, unreserve]
    split
    · exact unmoved_of_nodes rfl
    · split
      · exact unmoved_of_nodes rfl
      · exact (unmoved_of_nodes rfl).updateNode n (vacate_cleared _)
  | move a r source target => exact unmoved_move filed a r source target
  | mark a id =>
    simp only [perform, mark]
    split
    · exact unmoved_of_nodes rfl
    · split <;> exact unmoved_of_nodes rfl
  | snapshot a cluster =>
    simp only [perform, snapshot]
    split
    · exact unmoved_of_nodes rfl
    · rename_i s _
      exact unmoved_of_nodes (acquire_nodes s.undelivered w)
  | pick a priority need cluster =>
    simp only [perform, findToUnreserve]
    split
    · exact unmoved_of_nodes rfl
    · split
      · exact unmoved_of_nodes rfl
      · split <;> exact unmoved_of_nodes rfl
  | report a partitionResource capacity =>
    simp only [perform, report]
    split <;> exact unmoved_of_nodes rfl
  | transfer a previous =>
    simp only [perform, transfer]
    split <;> exact unmoved_of_nodes rfl
  | processNode a n =>
    simp only [perform]
    split <;> exact unmoved_of_nodes rfl
  | stop | request | limitBy | setHeadroom | skipNode | setClock => exact unmoved_of_nodes rfl
  | allocate | complete | relabel | setPartition | claim | release => exact quiet.elim

end World
end ClusterLedger
