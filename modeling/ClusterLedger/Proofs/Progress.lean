import ClusterLedger.Proofs.Placement
/- Scheduling does not get stuck. A pass that allocates nothing leaves nothing that it could place,
   and since each allocation takes at least one container off what is asked for, no more passes can
   allocate than containers are outstanding. -/
namespace ClusterLedger

def Call.AsksNothing : Call → Prop
  | .request .. => False
  | _ => True

def Act.AsksNothing : Act → Prop
  | .request .. => False
  | _ => True

theorem Call.Schedules.asksNothing {c : Call} (schedules : c.Schedules) : c.AsksNothing := by
  cases c <;> first | exact schedules.elim | trivial

namespace Demand
variable {d : Demand} {p : Priority}

def total (d : Demand) : Nat := (d.priorities.map fun p => (d.outstanding p).toNat).sum

theorem priorities_consume (d : Demand) (p : Priority) (places : List String) :
    (d.consume p places).2.priorities = d.priorities := by
  induction places generalizing d with
  | nil => rfl
  | cons place places ih =>
    refine (ih (d.serve p place).2).trans ?_
    unfold serve
    split
    · rfl
    · rename_i requests at_
      split
      · rfl
      · refine Table.keys_congr fun q => ?_
        rw [Table.lookup_insert]
        split
        · rename_i same
          rw [same, at_]
          rfl
        · rfl

theorem total_consume (wanted : 0 < (d.outstanding p).toNat) {places : List String}
    (any : anyPlace ∈ places) : (d.consume p places).2.total < d.total := by
  have served : 0 < places.count anyPlace := List.count_pos_iff.mpr any
  have listed : p ∈ d.priorities := by
    cases asked : d.request? p anyPlace with
    | none => simp [outstanding, asked] at wanted
    | some r => exact mem_priorities asked
  rw [total, total, priorities_consume]
  refine List.sum_lt_sum _ _ (fun q _ => ?_) ⟨p, listed, ?_⟩
  · rw [outstanding_consume]
    split
    · rename_i same
      rw [same]
      exact Nat.sub_le _ _
    · exact Nat.le_refl _
  · rw [outstanding_consume, if_pos rfl]
    omega

end Demand

theorem Locality.any_mem_places (locality : Locality) (node : NodeId) (rack : String) :
    anyPlace ∈ locality.places node rack := by
  cases locality <;> simp [Locality.places]

namespace World
variable {w : World} {order : List AttemptId}

def unserved (w : World) (a : AttemptId) : Nat :=
  ((w.attempts.get? a).map (·.demand.total)).getD 0

theorem unserved_terms (w : World) (a : AttemptId) :
    w.unserved a = ((w.terms? a).map (·.demand.total)).getD 0 := by
  simp only [unserved, terms?, Option.map_map]
  rfl

theorem unserved_perform {c : Call} (nothing : c.AsksNothing) (a : AttemptId) :
    (if c.actor = some a then w.starts c else []).length + (w.perform c).unserved a ≤
      w.unserved a := by
  have kept : c.KeepsTerms → w.starts c = [] → (if c.actor = some a then w.starts c else []).length +
      (w.perform c).unserved a ≤ w.unserved a := by
    intro keeps silent
    rw [unserved_terms, unserved_terms, terms_perform c keeps, silent]
    simp
  cases c with
  | request => exact nothing.elim
  -- A stopped attempt still asks for what it asked for.
  | stop x =>
    rw [unserved_terms, unserved_terms, terms_treat, Option.map_map]
    by_cases own : x = a <;> simp [starts, treat, own, Function.comp_def]
  | allocate x locality n p c =>
    rcases allocate_cases (w := w) x locality n p c with refused | ⟨s, node, found, offered, may⟩
    · simp [perform, starts, refused]
    · have granted := (allocate_isSome_iff locality found offered).mpr may
      have wanted := ((mayAllocate_iff found).mp may).2.1
      rw [unserved_terms, unserved_terms]
      simp only [perform, terms_allocate locality found offered may, starts, granted, Call.actor,
        ↓reduceIte]
      by_cases own : a = x
      · have spent := Demand.total_consume wanted (locality.any_mem_places node.id node.rack)
        simp only [own, ↓reduceIte, terms_of_found found, Option.map_some, Option.getD_some,
          Terms.consume, Attempt.terms, List.length_singleton]
        omega
      · simp [own, Ne.symm own]
  | _ => exact kept trivial rfl

theorem unserved_call (lists : w.Lists order) {c : Call} (nothing : c.AsksNothing) :
    (w.starts c).length + (order.map (w.perform c).unserved).sum ≤ (order.map w.unserved).sum := by
  have started := flatMap_owner (l := w.starts c) lists.distinct
    fun some => lists.actor (.inl some)
  have each := List.sum_le_sum (l := order) fun a _ => unserved_perform (w := w) nothing a
  rw [List.sum_map_add, ← List.length_flatMap, started] at each
  exact each

theorem unserved_run (tidy : w.Tidy) (lists : w.Lists order) {calls : List Call}
    (nothing : ∀ c ∈ calls, c.AsksNothing) :
    (w.gather starts calls).length + (order.map (w.after calls).unserved).sum ≤
      (order.map w.unserved).sum := by
  induction calls generalizing w with
  | nil => simp [gather]
  | cons c calls ih =>
    obtain ⟨now, later⟩ := List.forall_mem_cons.mp nothing
    have first := unserved_call lists now
    have rest := ih (tidy.perform c) (lists.follows (passage_perform tidy.toFiled c).follows) later
    rw [gather, List.length_append, after_cons]
    omega

end World

theorem Cluster.validate_workers {c : Cluster} (valid : c.validate = .ok ()) :
    0 < c.simulation.workers.toNat :=
  Nat.pos_of_ne_zero fun none => (validate_iff.mp valid).2.1 (UInt64.toNat_inj.mp none)

namespace Simulation
variable {sim : Simulation}

def unserved (sim : Simulation) : Nat := (sim.order.map sim.world.unserved).sum

def productive (sim : Simulation) : List Act → Nat
  | [] => 0
  | x :: acts => (if 0 < (sim.answer x).allocated then 1 else 0) + (sim.act x).productive acts

theorem productive_le_allocated (sim : Simulation) (acts : List Act) :
    sim.productive acts ≤ (sim.account acts).allocated := by
  induction acts generalizing sim with
  | nil => exact Nat.le_refl 0
  | cons x acts ih =>
    have rest := ih (sim.act x)
    have added : (sim.account (x :: acts)).allocated =
        (sim.answer x).allocated + ((sim.act x).account acts).allocated := rfl
    rw [productive, added]
    split <;> omega

section Calls

theorem markCalls_askNothing (count : Nat) : ∀ c ∈ sim.markCalls count, c.AsksNothing := by
  induction count generalizing sim with
  | zero => simp [markCalls]
  | succ count ih =>
    unfold markCalls
    split
    · simp
    · refine List.forall_mem_append.mpr ⟨fun c member => ?_, ih⟩
      obtain ⟨id, _, rfl⟩ := Option.map_eq_some_iff.mp (Option.mem_toList.mp member)
      trivial

theorem reclaimAllCalls_askNothing (a : AttemptId) (ids : List ContainerId) :
    ∀ c ∈ sim.reclaimAllCalls a ids, c.AsksNothing := by
  induction ids generalizing sim with
  | nil => simp [reclaimAllCalls]
  | cons id ids ih =>
    refine List.forall_mem_append.mpr ⟨?_, ih⟩
    unfold reclaimCalls
    split
    · simp
    · dsimp only
      split <;> simp [Call.AsksNothing]

theorem pullCalls_askNothing (cluster : Resource) (order : List AttemptId) :
    ∀ c ∈ sim.pullCalls cluster order, c.AsksNothing := by
  induction order generalizing sim with
  | nil => simp [pullCalls]
  | cons a rest ih =>
    exact List.forall_mem_cons.mpr
      ⟨trivial, List.forall_mem_append.mpr ⟨reclaimAllCalls_askNothing a _, ih⟩⟩

theorem calls_askNothing {x : Act} (nothing : x.AsksNothing) : ∀ c ∈ sim.calls x, c.AsksNothing := by
  cases x with
  | schedule worker round =>
    exact fun c member => (passCalls_schedule worker round c member).asksNothing
  | preempt => exact markCalls_askNothing _
  | beat heartbeat => exact pullCalls_askNothing _ _
  | stop a => simp [calls, Call.AsksNothing]
  | request a requests => exact nothing.elim
  | setClock now => simp [calls, Call.AsksNothing]

theorem script_askNothing {acts : List Act} (nothing : ∀ x ∈ acts, x.AsksNothing) :
    ∀ c ∈ sim.script acts, c.AsksNothing := by
  induction acts generalizing sim with
  | nil => simp [script]
  | cons x acts ih =>
    obtain ⟨now, later⟩ := List.forall_mem_cons.mp nothing
    exact List.forall_mem_append.mpr ⟨calls_askNothing now, ih later⟩

end Calls

theorem productive_le_unserved (steady : sim.Steady) {acts : List Act}
    (nothing : ∀ x ∈ acts, x.AsksNothing) : sim.productive acts ≤ sim.unserved := by
  have silent : ∀ c ∈ sim.script acts, c.AsksNothing := script_askNothing nothing
  have spent := World.unserved_run steady.tidy steady.lists silent
  have begun : (sim.world.gather World.starts (sim.script acts)).length =
      (sim.account acts).allocated := (plays_script steady.tidy acts).begun
  rw [begun] at spent
  exact (productive_le_allocated sim acts).trans ((Nat.le_add_right _ _).trans spent)

section Settings

theorem settings_place (a : AttemptId) (node : Node) (requests : List Request) (p : Priority)
    (capability : Resource) :
    (sim.place a node requests p capability).2.settings = sim.settings := by
  simp only [place, freshId]
  split <;> rfl

theorem settings_hold (a : AttemptId) (node : Node) (existing : Option RecordId) (p : Priority)
    (capability : Resource) :
    (sim.hold a node existing p capability).2.settings = sim.settings := by
  unfold hold
  split
  · rfl
  · simp only [freshId]
    split <;> rfl

theorem settings_offerAt (a : AttemptId) (n : NodeId) (partition : Partition) (p : Priority) :
    (sim.offerAt a n partition p).2.settings = sim.settings := by
  unfold offerAt
  split
  · split
    · rfl
    · split
      · rfl
      · split
        · exact settings_place ..
        · exact settings_hold ..
  · rfl

theorem settings_each {α : Type} {f : Simulation → α → PassStats × Simulation}
    (kept : ∀ sim x, (f sim x).2.settings = sim.settings) (items : List α) :
    (countEach f sim items).2.settings = sim.settings :=
  countEach_keeps (·.settings = sim.settings) (fun m x same => (kept m x).trans same) rfl items

theorem settings_offer (n : NodeId) (a : AttemptId) :
    (offer n sim a).2.settings = sim.settings := by
  unfold offer
  split
  · split
    · rfl
    · exact settings_each (fun _ _ => settings_offerAt ..) _
  · rfl

theorem settings_marks (count : Nat) : (sim.preemptTimes count).2.settings = sim.settings := by
  induction count generalizing sim with
  | zero => rfl
  | succ count ih =>
    unfold preemptTimes
    split
    · rfl
    · refine ih.trans ?_
      unfold preemptOne
      split <;> rfl

theorem settings_reclaimAll (a : AttemptId) (ids : List ContainerId) :
    (sim.reclaimAll a ids).2.settings = sim.settings := by
  induction ids generalizing sim with
  | nil => rfl
  | cons id ids ih =>
    have kept : (sim.reclaim a id).2.settings = sim.settings := by
      unfold reclaim
      split
      · rfl
      · dsimp only
        split <;> rfl
    exact ih.trans kept

theorem settings_pull (heartbeat : Nat) (cluster : Resource) (order : List AttemptId) :
    (sim.pull heartbeat cluster order).2.2.settings = sim.settings := by
  induction order generalizing sim with
  | nil => rfl
  | cons a rest ih => exact ih.trans (settings_reclaimAll a _)

theorem settings_act (x : Act) : (sim.act x).settings = sim.settings := by
  cases x with
  | schedule worker round =>
    exact settings_each (fun _ (e : NodeId × Nat) =>
      settings_each (fun _ a => settings_offer e.1 a) _) _
  | preempt => exact settings_marks _
  | beat heartbeat => exact settings_pull heartbeat _ _
  | stop | request | setClock => rfl

theorem settings_acts (acts : List Act) : (acts.foldl act sim).settings = sim.settings := by
  induction acts generalizing sim with
  | nil => rfl
  | cons x acts ih => exact ih.trans (settings_act x)

end Settings

/-- However a valid description is simulated: after a pass of a worker that allocates nothing, no
    attempt that goes on wants a container which a node of the worker's share has room for, in the
    partition that it asks for, and the pass has changed neither what nodes have left nor what
    attempts ask for nor what runs. As long as nobody asks for more, no more acts allocate than
    containers are outstanding. -/
theorem passes_not_stuck {c : Cluster} (valid : c.validate = .ok ()) :
    ∃ sim, build c = .ok sim ∧ ∀ acts : List Act,
      let now := acts.foldl act sim
      (∀ worker round, (now.schedulingPass worker round).1.allocated = 0 →
        let before := now.world
        let after := (now.schedulingPass worker round).2.world
        (∀ (i : Nat) n, after.nodes.keys[i]? = some n → i % c.simulation.workers.toNat = worker →
          ∀ a p, ¬ after.Placeable a p n) ∧
        (∀ n, (after.nodes.get? n).map (·.available) = (before.nodes.get? n).map (·.available)) ∧
        (∀ a, (after.attempts.get? a).map (·.demand) = (before.attempts.get? a).map (·.demand)) ∧
        ∀ a id, after.running? a id = before.running? a id ∧
          ∀ r, before.running? a id = some r → after.record r = before.record r) ∧
      ∀ more : List Act, (∀ x ∈ more, x.AsksNothing) → now.productive more ≤ now.unserved := by
  obtain ⟨sim, built, ready, settings⟩ := build_ready valid
  refine ⟨sim, built, fun acts => ?_⟩
  have now := ready.plays (plays_script ready.tidy acts)
  refine ⟨fun worker round idle => ?_, fun more nothing => productive_le_unserved now.toSteady nothing⟩
  obtain ⟨since, none⟩ := pass_idle now idle
  have tried := since.undisturbed
  refine ⟨fun i n at_ share a p placeable => ?_, fun n => ?_, fun a => ?_, fun a id => ?_⟩
  · have workers := Cluster.validate_workers valid
    refine none (n, i) (mem_shareOf.mpr ⟨tried.nodes.keys ▸ at_, ?_⟩) a p
      (tried.placeable_iff.mp placeable)
    rw [settings_acts, settings, Nat.max_eq_left workers, share]
  · have same := congrArg (Option.map Node.available) (tried.nodes n)
    rwa [Option.map_map, Option.map_map] at same
  · have same := congrArg (Option.map Terms.demand) (congrFun tried.terms a)
    rwa [World.terms?, World.terms?, Option.map_map, Option.map_map] at same
  · exact ⟨tried.running a id, tried.records a id⟩

/-- The first worker's node is full and is only held for the second container, which one more pass
    can place: the second worker's. -/
theorem passes_not_stuck_sample :
    let c : Cluster := {
      nodes := [{ id := ⟨"n1"⟩, memoryMb := 2048, vcores := 1 },
        { id := ⟨"n2"⟩, memoryMb := 2048, vcores := 1 }]
      queues := [{ name := ⟨"q"⟩ }]
      attempts := [{ id := ⟨"a"⟩, user := "u", queue := ⟨"q"⟩
                     requests := [⟨⟨1⟩, anyPlace, ⟨2048, 1⟩, 2, true, ""⟩] }] }
    let acts : List Act := [.schedule 0 1]
    let more : List Act := [.schedule 0 2, .schedule 1 2, .beat 2, .schedule 1 3]
    ∃ sim, build c = .ok sim ∧
      ((acts.foldl act sim).schedulingPass 0 2).1 = { reserved := 1 } ∧
      ¬ ((acts.foldl act sim).schedulingPass 0 2).2.world.Placeable ⟨"a"⟩ ⟨1⟩ ⟨"n1"⟩ ∧
      (acts.foldl act sim).unserved = 1 ∧ (acts.foldl act sim).productive more = 1 ∧
      (acts.foldl act sim).productive more ≤ (acts.foldl act sim).unserved := by
  intro c acts more
  obtain ⟨sim, built, holds⟩ := passes_not_stuck (show c.validate = .ok () by decide)
  obtain ⟨passes, bound⟩ := holds acts
  have seen : (build c).toOption.map (fun sim => (((acts.foldl act sim).schedulingPass 0 2).1,
      ((acts.foldl act sim).schedulingPass 0 2).2.world.nodes.keys[0]?,
      (acts.foldl act sim).unserved, (acts.foldl act sim).productive more)) =
      some ({ reserved := 1 }, some ⟨"n1"⟩, 1, 1) := by
    decide +kernel
  rw [built] at seen
  simp only [Except.toOption, Option.map_some, Option.some.injEq, Prod.mk.injEq] at seen
  obtain ⟨stats, first, left, count⟩ := seen
  obtain ⟨full, _⟩ := passes 0 2 (by rw [stats])
  exact ⟨sim, built, stats, full 0 ⟨"n1"⟩ first rfl ⟨"a"⟩ ⟨1⟩, left, count,
    bound more (by simp [more, Act.AsksNothing])⟩

end Simulation
end ClusterLedger
