import ClusterLedger.Proofs.Freshness
import ClusterLedger.Proofs.Demand
/- Passes that place nothing. What attempts ask for and what nodes have left decide whether something
   could be placed, and an offer that places nothing changes neither, so no offer spoils another one:
   where a pass allocates nothing, there was nothing that it could have placed. -/
namespace ClusterLedger
open Std

def Call.Tentative : Call → Prop
  | .processNode .. | .reserve .. => True
  | _ => False

theorem Table.keys_congr {κ ν : Type} [Ord κ] [TransOrd κ] [LawfulEqOrd κ] {t t' : Table κ ν}
    (same : ∀ k, (t.get? k).isSome = (t'.get? k).isSome) : t.keys = t'.keys := by
  refine Attempt.eq_of_ascending (List.pairwise_map.mpr t.ascending) (List.pairwise_map.mpr t'.ascending) ?_
  exact fun k => by rw [Table.mem_keys, Table.mem_keys, same]

theorem Demand.mem_priorities {d : Demand} {p : Priority} {place : String} {r : Request}
    (asks : d.request? p place = some r) : p ∈ d.priorities := by
  obtain ⟨requests, found, _⟩ := Option.bind_eq_some_iff.mp asks
  exact Table.mem_keys.mpr (by rw [found]; rfl)

namespace World
variable {w m w' : World} {a : AttemptId} {p : Priority} {n : NodeId}

structure Undisturbed (w w' : World) : Prop where
  nodes : Unmoved w w'
  terms : w'.terms? = w.terms?
  running : ∀ a id, w'.running? a id = w.running? a id
  records : ∀ a id r, w.running? a id = some r → w'.record r = w.record r

theorem undisturbed_refl (w : World) : Undisturbed w w :=
  ⟨unmoved_of_nodes rfl, rfl, fun _ _ => rfl, fun _ _ _ _ => rfl⟩

theorem Undisturbed.trans (first : Undisturbed w m) (second : Undisturbed m w') :
    Undisturbed w w' where
  nodes n := (second.nodes n).trans (first.nodes n)
  terms := second.terms.trans first.terms
  running a id := (second.running a id).trans (first.running a id)
  records a id r runs :=
    (second.records a id r ((first.running a id).trans runs)).trans (first.records a id r runs)

theorem Outcome.spares {c : Call} (outcome : Outcome w c w') (coherent : w.Coherent)
    (tentative : c.Tentative) : (∀ a id, w'.running? a id = w.running? a id) ∧
      ∀ a id r, w.running? a id = some r → w'.record r = w.record r := by
  cases outcome with
  | begins | ends | relabels | lapses | moves | delivers => exact tentative.elim
  | reserves step =>
    refine ⟨step.running?_same step.live, fun a id r runs => ?_⟩
    refine record_other step.records r ?_
    rintro rfl
    exact step.fresh (coherent.runs runs).1
  | displaces _ first second =>
    have same := first.running?_same first.live
    refine ⟨fun a id => (second.running?_same second.live a id).trans (same a id), ?_⟩
    intro a id r runs
    refine (record_other second.records r ?_).trans (first.records r)
    rintro rfl
    exact second.fresh ((first.knows _).mpr (coherent.runs runs).1)
  | resizes _ step =>
    refine ⟨step.running?_same step.live, fun a id r runs => ?_⟩
    refine record_other step.records r ?_
    rintro rfl
    exact coherent.apart ((step.reservation?_before _).trans step.found) runs
  | notes _ _ step => exact ⟨step.running?_same step.live, fun _ _ r _ => step.records r⟩
  | tends _ step =>
    refine ⟨fun a id => ?_, fun _ _ r _ => step.records r⟩
    simp [running?, step.attempts]

theorem undisturbed_perform (sound : w.Sound) {c : Call} (tentative : c.Tentative) :
    Undisturbed w (w.perform c) := by
  obtain ⟨running, records⟩ := (outcome sound c).spares sound.toCoherent tentative
  refine ⟨unmoved_quiet (fun _ _ => sound.nodeNamed) ?_, terms_perform c ?_, running, records⟩ <;>
    cases c <;> first | exact tentative.elim | trivial

/-- The attempt goes on, and the node has room for a container that it still wants there. -/
def Placeable (w : World) (a : AttemptId) (p : Priority) (n : NodeId) : Prop :=
  ∃ s node wanted, w.attempts.get? a = some s ∧ w.nodes.get? n = some node ∧ s.stopped = false ∧
    s.demand.request? p anyPlace = some wanted ∧ wanted.count ≠ 0 ∧ wanted.label = node.partition ∧
    wanted.capability.fitsIn node.available = true

theorem Unmoved.site (unmoved : Unmoved w w') {node' : Node} (found : w'.nodes.get? n = some node') :
    ∃ node, w.nodes.get? n = some node ∧ node'.partition = node.partition ∧
      node'.available = node.available := by
  have same := unmoved n
  rw [found, Option.map_some] at same
  obtain ⟨node, there, cleared⟩ := Option.map_eq_some_iff.mp same.symm
  have partition := congrArg Node.partition cleared
  have available := congrArg Node.available cleared
  exact ⟨node, there, partition.symm, available.symm⟩

theorem terms_of_found {s : Attempt} (found : w.attempts.get? a = some s) :
    w.terms? a = some s.terms := by
  rw [terms?, found, Option.map_some]

theorem attempt_of_terms (terms : w'.terms? = w.terms?) {s : Attempt}
    (found : w.attempts.get? a = some s) :
    ∃ s', w'.attempts.get? a = some s' ∧ s'.demand = s.demand ∧ s'.stopped = s.stopped := by
  obtain ⟨s', found', same⟩ := Option.map_eq_some_iff.mp
    ((congrFun terms a).trans (terms_of_found found))
  exact ⟨s', found', Terms.mk.inj same⟩

theorem Placeable.back (placeable : w'.Placeable a p n) (nodes : Unmoved w w')
    (terms : w'.terms? = w.terms?) : w.Placeable a p n := by
  obtain ⟨s', node', wanted, found', there', going, asked, wants, label, fits⟩ := placeable
  obtain ⟨node, there, partition, available⟩ := nodes.site there'
  obtain ⟨s, found, demand, stopped⟩ := attempt_of_terms terms.symm found'
  exact ⟨s, node, wanted, found, there, stopped.trans going, demand ▸ asked, wants, partition ▸ label,
    available ▸ fits⟩

theorem Undisturbed.placeable_iff (undisturbed : Undisturbed w w') :
    w'.Placeable a p n ↔ w.Placeable a p n :=
  ⟨fun after => after.back undisturbed.nodes undisturbed.terms,
    fun before => before.back (fun n => (undisturbed.nodes n).symm) undisturbed.terms.symm⟩

theorem Unmoved.keys (unmoved : Unmoved w w') : w'.nodes.keys = w.nodes.keys := by
  refine Table.keys_congr fun n => ?_
  have same := congrArg Option.isSome (unmoved n)
  simpa using same

end World

namespace Simulation
variable {sim base : Simulation} {a : AttemptId} {p : Priority} {n : NodeId} {node : Node}

theorem place_allocates (ready : sim.Ready) {s : Attempt}
    (found : sim.world.attempts.get? a = some s) (going : s.stopped = false)
    (wanted : 0 < (s.demand.outstanding p).toNat) (there : (sim.world.nodes.get? node.id).isSome)
    (requests : List Request) (capability : Resource) :
    (sim.place a node requests p capability).1.allocated = 1 := by
  have freed := ready.plays (plays_aside sim (c := .unreserve a p node.id) trivial)
  have terms := World.terms_perform (w := sim.world) (.unreserve a p node.id) trivial
  have unmoved := World.unmoved_quiet (w := sim.world) (fun _ _ => ready.sound.nodeNamed)
    (c := .unreserve a p node.id) trivial
  simp only [World.perform] at freed terms unmoved
  simp only [place, freshId_name]
  generalize (sim.world.unreserve a p node.id).2 = world at *
  generalize made : Container.mk _ _ _ _ _ _ = container
  have name : container.id = nameAt a sim.nextContainer := made ▸ rfl
  obtain ⟨s', found', demand, stopped⟩ := World.attempt_of_terms terms found
  have stands : (world.nodes.get? node.id).isSome := by
    have same := congrArg Option.isSome (unmoved node.id)
    simpa [there] using same
  obtain ⟨node', there'⟩ := Option.isSome_iff_exists.mp stands
  obtain ⟨idle, unreserved⟩ := freed.next_free a a
  have may : world.mayAllocate s' p container.id = true := by
    rw [World.mayAllocate_iff found', name]
    exact ⟨stopped.trans going, demand ▸ wanted, idle, unreserved⟩
  obtain ⟨r, answer⟩ := Option.isSome_iff_exists.mp
    ((World.allocate_isSome_iff (localityOn requests node) found' there').mpr may)
  rw [answer]

theorem hold_undisturbed (sound : sim.world.Sound) (existing : Option RecordId)
    (capability : Resource) :
    World.Undisturbed sim.world (sim.hold a node existing p capability).2.world := by
  unfold hold
  split
  · exact World.undisturbed_refl sim.world
  · simp only [freshId_name]
    generalize Container.mk _ _ _ _ _ _ = container
    have tries := World.undisturbed_perform sound (c := .reserve a p node.id existing container) trivial
    split <;> exact tries

theorem offerAt_allocates (ready : sim.Ready) (there : sim.world.nodes.get? n = some node)
    (placeable : sim.world.Placeable a p n) :
    (sim.offerAt a n node.partition p).1.allocated = 1 := by
  obtain ⟨s, node', wanted, found, there', going, asked, wants, label, fits⟩ := placeable
  obtain rfl := Option.some.inj (there.symm.trans there')
  have named := ready.sound.nodeNamed there
  obtain ⟨claimed, granted⟩ : ∃ claimed, node.claim? wanted.capability = some claimed :=
    ⟨_, if_pos fits⟩
  have claims := ready.plays (plays_aside sim (c := .claim n wanted.capability) trivial)
  rw [World.perform_claim there named granted] at claims
  have still : ((sim.world.addNode claimed).nodes.get? node.id).isSome := by
    rw [World.addNode_nodes]
    split
    · rfl
    · rw [named, there]
      rfl
  have positive : 0 < (s.demand.outstanding p).toNat := by
    simp only [Demand.outstanding, asked, Option.map_some, Option.getD_some]
    exact Nat.pos_of_ne_zero fun none => wants (UInt32.toNat_inj.mp none)
  have meant : ¬ (wanted.count = 0 ∨ wanted.label ≠ node.partition) := by
    simp [wants, label]
  simp only [offerAt, found, there, asked, if_neg meant, granted]
  exact place_allocates claims found going positive still (s.demand.atPriority p) wanted.capability

theorem offerAt_idle (ready : sim.Ready) {s : Attempt} (found : sim.world.attempts.get? a = some s)
    (going : s.stopped = false) (there : sim.world.nodes.get? n = some node)
    (idle : (sim.offerAt a n node.partition p).1.allocated = 0) :
    World.Undisturbed sim.world (sim.offerAt a n node.partition p).2.world ∧
      ¬ sim.world.Placeable a p n := by
  have none : ¬ sim.world.Placeable a p n := fun placeable =>
    absurd (idle.symm.trans (offerAt_allocates ready there placeable)) (by simp)
  refine ⟨?_, none⟩
  simp only [offerAt, found, there]
  split
  · exact World.undisturbed_refl sim.world
  · rename_i wanted asked
    split
    · exact World.undisturbed_refl sim.world
    · rename_i meant
      obtain ⟨wants, label⟩ := not_or.mp meant
      split
      · rename_i claimed granted
        have fits : wanted.capability.fitsIn node.available = true := by
          by_contra full
          simp [Node.claim?, full] at granted
        exact absurd ⟨s, node, wanted, found, there, going, asked, wants, not_not.mp label, fits⟩ none
      · exact hold_undisturbed ready.sound _ _

structure Since (base sim : Simulation) : Prop where
  ready : sim.Ready
  undisturbed : World.Undisturbed base.world sim.world
  order : sim.order = base.order

theorem since_refl (ready : sim.Ready) : Since sim sim := ⟨ready, World.undisturbed_refl _, rfl⟩

theorem Since.plays {sim' : Simulation} {calls : List Call} {told : Account}
    (since : Since base sim) (plays : Plays sim calls told sim')
    (undisturbed : World.Undisturbed sim.world sim'.world) : Since base sim' :=
  ⟨since.ready.plays plays, since.undisturbed.trans undisturbed, plays.order.trans since.order⟩

theorem countEach_idle {α : Type} {f : Simulation → α → PassStats × Simulation} {items : List α}
    {settled : α → Prop} (since : Since base sim)
    (step : ∀ sim, Since base sim → ∀ x ∈ items, (f sim x).1.allocated = 0 →
      Since base (f sim x).2 ∧ settled x)
    (idle : (countEach f sim items).1.allocated = 0) :
    Since base (countEach f sim items).2 ∧ ∀ x ∈ items, settled x := by
  induction items generalizing sim with
  | nil => exact ⟨since, by simp⟩
  | cons x items ih =>
    rw [countEach_cons] at idle ⊢
    obtain ⟨first, rest⟩ := Nat.add_eq_zero_iff.mp idle
    obtain ⟨since, here⟩ := step sim since x List.mem_cons_self first
    obtain ⟨since, later⟩ := ih since
      (fun sim since y member => step sim since y (List.mem_cons_of_mem _ member)) rest
    exact ⟨since, List.forall_mem_cons.mpr ⟨here, later⟩⟩

theorem offer_cases (sim : Simulation) (a : AttemptId) (n : NodeId) :
    (offer n sim a = ({}, sim) ∧ ∀ p, ¬ sim.world.Placeable a p n) ∨
      ∃ s node, sim.world.attempts.get? a = some s ∧ sim.world.nodes.get? n = some node ∧
        s.stopped = false ∧
        offer n sim a = countEach (fun sim p => sim.offerAt a n node.partition p)
          { sim with world := sim.world.perform (.processNode a n) } s.demand.priorities := by
  by_cases stands : ∃ s node, sim.world.attempts.get? a = some s ∧
      sim.world.nodes.get? n = some node ∧ s.stopped = false
  · obtain ⟨s, node, found, there, going⟩ := stands
    refine .inr ⟨s, node, found, there, going, ?_⟩
    simp only [offer, found, there, going, Bool.false_eq_true, ↓reduceIte, World.perform]
  · refine .inl ⟨?_, ?_⟩
    · unfold offer
      split
      · rename_i s node found there
        split
        · rfl
        · rename_i going
          exact absurd ⟨s, node, found, there, Bool.eq_false_of_not_eq_true going⟩ stands
      · rfl
    · rintro p ⟨s, node, _, found, there, going, _⟩
      exact stands ⟨s, node, found, there, going⟩

theorem offer_idle (since : Since base sim) (idle : (offer n sim a).1.allocated = 0) :
    Since base (offer n sim a).2 ∧ ∀ p, ¬ base.world.Placeable a p n := by
  rcases offer_cases sim a n with ⟨same, none⟩ | ⟨s, node, found, there, going, same⟩
  · rw [same]
    exact ⟨since, fun p placeable => none p (since.undisturbed.placeable_iff.mpr placeable)⟩
  · rw [same] at idle ⊢
    have noted := since.plays (plays_aside sim (c := .processNode a n) trivial)
      (World.undisturbed_perform since.ready.sound (c := .processNode a n) trivial)
    -- Offers at other priorities may have moved reservations, but neither stop the attempt nor give
    -- the node another partition, so each offer is made as if it were the first.
    have step : ∀ sim', Since base sim' → ∀ p ∈ s.demand.priorities,
        (sim'.offerAt a n node.partition p).1.allocated = 0 →
        Since base (sim'.offerAt a n node.partition p).2 ∧ ¬ base.world.Placeable a p n := by
      intro sim' since' p _ idle
      obtain ⟨s', found', _, stopped⟩ := World.attempt_of_terms
        (since'.undisturbed.terms.trans since.undisturbed.terms.symm) found
      obtain ⟨node', there', partition, _⟩ := World.Unmoved.site (w := sim'.world)
        (fun n => (since.undisturbed.nodes n).trans (since'.undisturbed.nodes n).symm) there
      rw [partition] at idle ⊢
      obtain ⟨tried, none⟩ := offerAt_idle since'.ready found'
        (stopped.trans going) there' idle
      exact ⟨since'.plays (plays_offerAt since'.ready.tidy a n _ p) tried,
        fun placeable => none (since'.undisturbed.placeable_iff.mpr placeable)⟩
    obtain ⟨since', none⟩ := countEach_idle noted step idle
    refine ⟨since', fun p placeable => none p ?_ placeable⟩
    obtain ⟨s', _, wanted, found', _, _, asks, _⟩ := since.undisturbed.placeable_iff.mpr placeable
    obtain rfl := Option.some.inj (found.symm.trans found')
    exact Demand.mem_priorities asks

theorem mem_rotated {offset : Nat} : a ∈ sim.rotated offset ↔ a ∈ sim.order := by
  simp only [rotated, List.rotateLeft]
  split
  · rfl
  · rw [List.mem_append, or_comm, ← List.mem_append, List.take_append_drop]

theorem mem_shareOf {worker i : Nat} : (n, i) ∈ sim.shareOf worker ↔
    sim.world.nodes.keys[i]? = some n ∧ i % max sim.settings.workers.toNat 1 = worker := by
  simp [shareOf, List.mem_zipIdx_iff_getElem?]

/-- Whatever comes first, a pass that allocates nothing only tried, and had nothing to place. -/
theorem pass_idle (ready : sim.Ready) {worker round : Nat}
    (idle : (sim.schedulingPass worker round).1.allocated = 0) :
    Since sim (sim.schedulingPass worker round).2 ∧
      ∀ e ∈ sim.shareOf worker, ∀ a p, ¬ sim.world.Placeable a p e.1 := by
  have step : ∀ m, Since sim m → ∀ e ∈ sim.shareOf worker,
      (countEach (offer e.1) m (m.rotated (firstOffset round e.2))).1.allocated = 0 →
      Since sim (countEach (offer e.1) m (m.rotated (firstOffset round e.2))).2 ∧
        ∀ a p, ¬ sim.world.Placeable a p e.1 := by
    intro m since e _ idle
    obtain ⟨last, none⟩ := countEach_idle (f := offer e.1) since
      (fun _ since a _ => offer_idle since) idle
    -- Every attempt that is there gets its turn, wherever the rotation begins.
    refine ⟨last, fun a p placeable => none a ?_ p placeable⟩
    obtain ⟨s, _, _, found, _⟩ := placeable
    rw [mem_rotated, since.order]
    exact ready.lists.complete a (by rw [found]; rfl)
  exact countEach_idle (since_refl ready) step idle

end Simulation
end ClusterLedger
