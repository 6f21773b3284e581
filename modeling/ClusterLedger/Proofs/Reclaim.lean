import ClusterLedger.Proofs.Lifecycle
import ClusterLedger.Proofs.Naming
/- Containers that are wanted back. Preemption passes mark them, the next heartbeat hands the marks
   over and ends what they are on, and nothing in between puts marks or takes them off. -/
namespace ClusterLedger
open scoped List

def Call.KeepsMarks : Call → Prop
  | .complete .. | .mark .. | .snapshot .. => False
  | _ => True

def Call.Schedules : Call → Prop
  | .processNode .. | .claim .. | .unreserve .. | .allocate .. | .release .. | .reserve .. => True
  | _ => False

theorem Call.Schedules.keepsMarks {c : Call} (schedules : c.Schedules) : c.KeepsMarks := by
  cases c <;> first | exact schedules.elim | trivial

def HeartbeatRecord.reclaims (e : HeartbeatRecord) : List (AttemptId × ContainerId) :=
  e.snapshot.preempted.ids.map (e.attempt, ·)

namespace World
variable {w w' : World} {a : AttemptId} {r : RecordId}

theorem deedOf_keeps {c : Call} (keeps : c.KeepsMarks) (w : World) (a : AttemptId) :
    w.deedOf a c ≠ some .delivers ∧
      ∀ id, w.deedOf a c ≠ some (.ends id) ∧ w.deedOf a c ≠ some (.marks id) := by
  cases c with
  | complete | mark | snapshot => exact keeps.elim
  | reserve x priority n existing container =>
    simp only [deedOf]
    split
    · split <;> simp
    · simp
  | _ => simp [deedOf]

theorem marks_kept (filed : w.Filed) {c : Call} (keeps : c.KeepsMarks) (a : AttemptId) :
    ((w.perform c).roster a).marks = (w.roster a).marks := by
  have course := (passage_perform filed c).course a
  obtain ⟨given, others⟩ := deedOf_keeps keeps w a
  generalize w.deedOf a c = d at *
  cases course with
  | begins _ _ _ _ _ roster => rw [roster, Roster.begin]
  | @ends id => exact absurd rfl (others id).1
  | @marks id => exact absurd rfl (others id).2
  | delivers => exact absurd rfl given
  | reserves roster =>
    rw [roster]
    exact ((w.roster a).giveUp_within _).marks
  | frees roster => rw [roster, Roster.unreserve]
  | stays roster => rw [roster]

theorem marks_after (filed : w.Filed) {calls : List Call} (keep : ∀ c ∈ calls, c.KeepsMarks)
    (a : AttemptId) : ((w.after calls).roster a).marks = (w.roster a).marks := by
  induction calls generalizing w with
  | nil => rfl
  | cons c calls ih =>
    have follows := (passage_perform filed c).follows
    rw [after_cons, ih (filed.follows follows) fun c member => keep c (List.mem_cons_of_mem _ member),
      marks_kept filed (keep c List.mem_cons_self)]

theorem snapshot_preempted (w : World) (a : AttemptId) (cluster : Resource) :
    (w.snapshot a cluster).1.preempted = (w.roster a).marks := by
  cases found : w.attempts.get? a with
  | none => simp [snapshot, roster, found]
  | some s =>
    rw [roster_of_found found]
    simp only [snapshot, found]
    rfl

structure Taken (w : World) (r : RecordId) : Prop extends w.Retired r where
  state : (w.record r).state = .completed
  completion : (w.record r).completion = some (Simulation.preemptedReport, .preempted)

theorem Taken.after (taken : w.Taken r) (sound : w.Sound) (calls : List Call) :
    (w.after calls).Taken r := by
  have final := taken.toRetired.final sound calls
  exact ⟨taken.toRetired.traces (sound.traces calls), final ▸ taken.state, final ▸ taken.completion⟩

theorem roster_beside (filed : w.Filed) {calls : List Call}
    (own : ∀ c ∈ calls, c.actor = some a ∨ c.actor = none) {b : AttemptId} (other : b ≠ a) :
    (w.after calls).roster b = w.roster b := by
  induction calls generalizing w with
  | nil => rfl
  | cons c calls ih =>
    have passage := passage_perform filed c
    have course := passage.course b
    have idle : w.deedOf b c = none := by
      refine deedOf_other fun actor => ?_
      rcases own c List.mem_cons_self with same | nobody
      · exact other (Option.some.inj (actor.symm.trans same))
      · simp [nobody] at actor
    rw [idle] at course
    cases course with
    | stays roster =>
      rw [after_cons, ih (filed.follows passage.follows)
        fun c member => own c (List.mem_cons_of_mem _ member), roster]

end World

namespace Simulation
variable {sim : Simulation}

def wanted (sim : Simulation) : List (AttemptId × ContainerId) :=
  sim.order.flatMap fun a => (sim.world.roster a).marks.ids.map (a, ·)

/-- What preemption passes answer in all since the last heartbeat, beside what was due before. -/
def awaited (sim : Simulation) (due : Nat) : List Act → Nat
  | [] => due
  | x :: acts => (sim.act x).awaited (match x with
    | .preempt => due + sim.preemptionPass.1
    | .beat _ => 0
    | _ => due) acts

theorem wanted_nodup (distinct : sim.order.Nodup) : sim.wanted.Nodup := by
  refine List.nodup_flatMap.mpr ⟨fun a _ => ?_, distinct.imp fun {a b} apart => ?_⟩
  · exact ((sim.world.roster a).marks.table.keys_nodup).map (Prod.mk_right_injective a)
  · intro x one other
    obtain ⟨_, _, rfl⟩ := List.mem_map.mp one
    obtain ⟨_, _, same⟩ := List.mem_map.mp other
    exact apart (congrArg Prod.fst same).symm

section Passes

theorem callsEach_all {α : Type} {f : Simulation → α → PassStats × Simulation}
    {calls : Simulation → α → List Call} {holds : Call → Prop}
    (step : ∀ sim x, ∀ c ∈ calls sim x, holds c) (items : List α) :
    ∀ c ∈ callsEach f calls sim items, holds c := by
  induction items generalizing sim with
  | nil => simp [callsEach]
  | cons x items ih =>
    intro c member
    rcases List.mem_append.mp member with first | later
    · exact step sim x c first
    · exact ih c later

theorem offerAtCalls_schedule (a : AttemptId) (n : NodeId) (partition : Partition)
    (priority : Priority) : ∀ c ∈ sim.offerAtCalls a n partition priority, c.Schedules := by
  unfold offerAtCalls
  split
  · split
    · simp
    · split
      · simp
      · split
        · simp only [placeCalls]
          split <;> simp [Call.Schedules]
        · unfold holdCalls
          split <;> simp [Call.Schedules]
  · simp

theorem passCalls_schedule (worker round : Nat) :
    ∀ c ∈ sim.passCalls worker round, c.Schedules := by
  refine callsEach_all (fun sim e => callsEach_all (fun sim a => ?_) _) _
  unfold offerCalls
  split
  · split
    · simp
    · refine List.forall_mem_cons.mpr ⟨trivial, ?_⟩
      exact callsEach_all (fun sim p => offerAtCalls_schedule _ _ _ _) _
  · simp

end Passes

section Preemption
variable {victim : Attempt}

theorem foldl_picks {α : Type} {f : Option α → α → Option α}
    (picks : ∀ best x, f best x = some x ∨ f best x = best) {l : List α} {best : Option α} {y : α}
    (chosen : l.foldl f best = some y) : y ∈ l ∨ best = some y := by
  induction l generalizing best with
  | nil => exact .inr chosen
  | cons x l ih =>
    rcases ih chosen with later | here
    · exact .inl (List.mem_cons_of_mem _ later)
    · rcases picks best x with next | kept
      · exact .inl (Option.some.inj (next.symm.trans here) ▸ List.mem_cons_self)
      · exact .inr (kept.symm.trans here)

theorem victim_among (chosen : sim.victim? = some victim) :
    victim ∈ sim.attempts ∧ 1 < victim.live.size := by
  refine (foldl_picks (fun best s => ?_) chosen).elim (fun member => ?_) fun nothing => ?_
  · cases best with
    | none => exact .inl rfl
    | some b =>
      dsimp only
      split
      · exact .inl rfl
      · exact .inr rfl
  · simpa using List.mem_filter.mp member
  · simp at nothing

structure Sparable (sim : Simulation) (x : AttemptId × ContainerId) : Prop where
  live : ((sim.world.roster x.1).live.get? x.2).isSome
  plural : 1 < (sim.world.roster x.1).live.size
  listed : x.1 ∈ sim.order

theorem preemptOne_marks (tidy : sim.world.Tidy) (distinct : sim.order.Nodup)
    (chosen : sim.victim? = some victim) :
    ∃ new : List (AttemptId × ContainerId), new.length = (sim.preemptOne victim).1 ∧
      new.length ≤ 1 ∧ (sim.preemptOne victim).2.wanted ~ new ++ sim.wanted ∧
      (∀ x ∈ new, sim.Sparable x) ∧
      ∀ a, ((sim.preemptOne victim).2.world.roster a).live = (sim.world.roster a).live := by
  obtain ⟨member, plural⟩ := victim_among chosen
  obtain ⟨a, listed, found⟩ := List.mem_filterMap.mp member
  obtain rfl := tidy.attempts a victim found
  unfold preemptOne
  split
  · exact ⟨[], rfl, Nat.zero_le _, .refl _, by simp, fun _ => rfl⟩
  · rename_i id newest
    have unmarked : victim.marks.has id = false := by
      simpa using List.find?_some newest
    have idle : victim.marks.table.get? id = none := by
      simpa [Marks.has, Table.contains] using unmarked
    have runs : ((sim.world.roster victim.id).live.get? id).isSome := by
      rw [World.roster_of_found found]
      exact Table.mem_keys.mp (List.mem_reverse.mp (List.mem_of_find?_eq_some newest))
    have clear : (sim.world.roster victim.id).marks.has id = false := by
      rwa [World.roster_of_found found]
    obtain ⟨marked, roster⟩ := World.mark_fresh runs clear
    refine ⟨[(victim.id, id)], by simp [marked], le_refl _, ?_, ?_, fun b => ?_⟩
    · refine flatMap_grows distinct listed (fun b other => ?_) ?_
      · simp only [roster, other, ↓reduceIte]
      · simp only [roster, ↓reduceIte, World.roster_of_found found]
        exact (Table.keys_insert_new () idle).map (victim.id, ·)
    · intro x new
      obtain rfl := List.mem_singleton.mp new
      refine ⟨runs, ?_, listed⟩
      rw [World.roster_of_found found]
      exact plural
    · simp only [roster]
      split
      · rename_i same
        rw [same]
        rfl
      · rfl

theorem preemptTimes_marks (tidy : sim.world.Tidy) (distinct : sim.order.Nodup) (count : Nat) :
    ∃ new : List (AttemptId × ContainerId), new.length = (sim.preemptTimes count).1 ∧
      new.length ≤ count ∧ (sim.preemptTimes count).2.wanted ~ new ++ sim.wanted ∧
      (∀ x ∈ new, sim.Sparable x) ∧
      ∀ a, ((sim.preemptTimes count).2.world.roster a).live = (sim.world.roster a).live := by
  induction count generalizing sim with
  | zero => exact ⟨[], rfl, Nat.zero_le _, .refl _, by simp, fun _ => rfl⟩
  | succ count ih =>
    cases chosen : sim.victim? with
    | none =>
      rw [preemptTimes, chosen]
      exact ⟨[], rfl, Nat.zero_le _, .refl _, by simp, fun _ => rfl⟩
    | some victim =>
      have plays := plays_marks sim 1
      simp only [preemptTimes, chosen] at plays
      obtain ⟨first, one, small, grown, sparable, kept⟩ := preemptOne_marks tidy distinct chosen
      obtain ⟨rest, more, few, grows, spared, same⟩ :=
        ih (plays.tidy tidy) (plays.order ▸ distinct)
      simp only [preemptTimes, chosen]
      refine ⟨rest ++ first, by simp [one, more, Nat.add_comm], ?_, ?_, ?_, fun a => ?_⟩
      · rw [List.length_append]
        omega
      · rw [List.append_assoc]
        exact grows.trans (grown.append_left rest)
      · intro x member
        rcases List.mem_append.mp member with later | now
        · obtain ⟨live, plural, listed⟩ := spared x later
          rw [kept] at live plural
          exact ⟨live, plural, plays.order ▸ listed⟩
        · exact sparable x now
      · exact (same a).trans (kept a)

end Preemption

section Heartbeat
variable {a : AttemptId}

theorem reclaimCalls_own (a : AttemptId) (id : ContainerId) :
    ∀ c ∈ sim.reclaimCalls a id, c.actor = some a ∨ c.actor = none := by
  unfold reclaimCalls
  split
  · simp
  · dsimp only
    split <;> simp [Call.actor]

theorem reclaimAllCalls_own (a : AttemptId) (ids : List ContainerId) :
    ∀ c ∈ sim.reclaimAllCalls a ids, c.actor = some a ∨ c.actor = none := by
  induction ids generalizing sim with
  | nil => simp [reclaimAllCalls]
  | cons id ids ih =>
    intro c member
    rcases List.mem_append.mp member with first | later
    · exact reclaimCalls_own a id c first
    · exact ih c later

theorem reclaim_runs (sound : sim.world.Sound) {id : ContainerId} {r : RecordId}
    (runs : sim.world.running? a id = some r) :
    sim.world.gather World.finishes (sim.reclaimCalls a id) = [id] ∧
      (∀ other, other ≠ id →
        (sim.reclaim a id).2.world.running? a other = sim.world.running? a other) ∧
      ((sim.world.roster a).marks = {} → ((sim.reclaim a id).2.world.roster a).marks = {}) ∧
      (sim.reclaim a id).2.world.Taken r := by
  obtain ⟨s, found, live⟩ := Option.bind_eq_some_iff.mp runs
  have there : (sim.world.attempts.get? a).bind (·.live.get? id) = some r := runs
  simp only [reclaim, reclaimCalls, there]
  generalize sim.world.record r = record
  obtain ⟨s', ends⟩ := World.complete_ends sound.toCoherent preemptedReport .preempted
    record.partition found live
  obtain ⟨w', answer, _, roster⟩ := World.complete_drop found live preemptedReport .preempted
    record.partition
  have later := sound.perform (.complete a id preemptedReport .preempted record.partition)
  rw [World.perform] at later
  simp only [answer, World.finishes, ↓reduceIte, World.gather, List.append_nil]
    at ends later ⊢
  have taken : w'.Taken r := by
    refine ⟨sound.retired_ends ends, ?_, ?_⟩ <;> rw [World.record_own ends.records] <;> rfl
  refine ⟨trivial, fun other apart => ?_, fun none => ?_, ?_⟩
  · have beside := ends.running? a other
    rw [if_pos rfl, ends.live, Table.lookup_erase, if_neg apart, ← ends.running?_before] at beside
    exact beside
  · have dropped := congrArg Roster.marks ((roster a).trans (if_pos rfl))
    refine dropped.trans ?_
    rw [Roster.drop, none]
    exact congrArg Marks.mk (Table.erase_of_absent rfl)
  · exact taken.after later [.release record.node record.resource]

theorem reclaimAll_runs (sound : sim.world.Sound) (tidy : sim.world.Tidy)
    (idle : (sim.world.roster a).undelivered = []) {ids : List ContainerId} (distinct : ids.Nodup)
    (runs : ∀ id ∈ ids, ∃ r, sim.world.running? a id = some r) :
    sim.world.gather World.finishes (sim.reclaimAllCalls a ids) = ids ∧
      ((sim.world.roster a).marks = {} →
        ((sim.reclaimAll a ids).2.world.roster a).marks = {}) ∧
      ∀ id ∈ ids, ∀ r, sim.world.running? a id = some r →
        (sim.reclaimAll a ids).2.world.Taken r := by
  induction ids generalizing sim with
  | nil => exact ⟨rfl, fun none => none, by simp⟩
  | cons id ids ih =>
    obtain ⟨apart, distinct⟩ := List.nodup_cons.mp distinct
    obtain ⟨r, running⟩ := runs id List.mem_cons_self
    obtain ⟨ended, beside, drained, taken⟩ := reclaim_runs sound running
    have first := plays_reclaim idle id
    have later : (sim.reclaim a id).2.world.Sound := first.world ▸ sound.after _
    have others : ∀ other ∈ ids, other ≠ id := fun other member same => apart (same ▸ member)
    have idle := first.idle tidy rfl idle
    have tidy := first.tidy tidy
    obtain ⟨rest, empties, follow⟩ := ih later tidy idle distinct fun other member => by
      rw [beside other (others other member)]
      exact runs other (List.mem_cons_of_mem _ member)
    refine ⟨?_, fun none => empties (drained none), ?_⟩
    · rw [reclaimAllCalls, World.gather_append, ended, ← first.world, rest]
      rfl
    · intro other member x found
      rcases List.mem_cons.mp member with same | member
      · subst same
        obtain rfl := Option.some.inj (running.symm.trans found)
        have ends := (plays_reclaimAll tidy idle ids).world
        exact (congrArg (World.Taken · r) ends).mpr (taken.after later _)
      · exact follow other member x ((beside other (others other member)).trans found)

theorem visit_reclaims (sound : sim.world.Sound) (tidy : sim.world.Tidy) (heartbeat : Nat)
    (cluster : Resource) (a : AttemptId) :
    let snapshot := (sim.world.snapshot a cluster).1
    let handed := { sim with world := (sim.world.snapshot a cluster).2 }
    let visited := (handed.reclaimAll a snapshot.preempted.ids).2
    snapshot.preempted = (sim.world.roster a).marks ∧
      sim.world.gather World.finishes
        (.snapshot a cluster :: handed.reclaimAllCalls a snapshot.preempted.ids) =
          (sim.world.roster a).marks.ids ∧
      (visited.world.roster a).marks = {} ∧
      (∀ b, b ≠ a → visited.world.roster b = sim.world.roster b) ∧
      ∀ id ∈ (sim.world.roster a).marks.ids, ∀ r, sim.world.running? a id = some r →
        visited.world.Taken r := by
  intro snapshot handed visited
  have given : snapshot.preempted = (sim.world.roster a).marks :=
    World.snapshot_preempted sim.world a cluster
  have delivered : handed.world.roster a = (sim.world.roster a).deliver :=
    World.snapshot_roster tidy.toFiled a cluster
  have same : ∀ id, handed.world.running? a id = sim.world.running? a id := by
    intro id
    rw [World.running?_roster, World.running?_roster, delivered]
    rfl
  have marked : ∀ id ∈ snapshot.preempted.ids, ∃ r, handed.world.running? a id = some r := by
    intro id member
    rw [given] at member
    rw [same, World.running?_roster]
    exact Option.isSome_iff_exists.mp ((tidy.orderly a).marked id (Table.mem_keys.mp member))
  have later : handed.world.Sound := sound.perform (.snapshot a cluster)
  obtain ⟨ended, drained, taken⟩ := reclaimAll_runs later (tidy.perform (.snapshot a cluster))
    (World.snapshot_idle tidy a cluster) snapshot.preempted.table.keys_nodup marked
  refine ⟨given, ?_, drained ?_, fun b other => ?_, fun id member r runs => ?_⟩
  · exact ended.trans (congrArg Marks.ids given)
  · rw [delivered]
    rfl
  · have plays := (plays_visit tidy heartbeat cluster a).1
    rw [plays.world, World.roster_beside tidy.toFiled ?_ other]
    exact List.forall_mem_cons.mpr ⟨.inl rfl, reclaimAllCalls_own a _⟩
  · exact taken id (given ▸ member) r ((same id).trans runs)

/-- A heartbeat gives back every mark of the attempts that it asks, ends what the marks were on and
    leaves no mark. -/
theorem pull_reclaims (sound : sim.world.Sound) (tidy : sim.world.Tidy) (heartbeat : Nat)
    (cluster : Resource) {order : List AttemptId} (distinct : order.Nodup) :
    let after := (sim.pull heartbeat cluster order).2.2
    (sim.pull heartbeat cluster order).1.flatMap (·.reclaims) =
        order.flatMap (fun a => (sim.world.roster a).marks.ids.map (a, ·)) ∧
      sim.world.gather World.finishes (sim.pullCalls cluster order) =
        order.flatMap (fun a => (sim.world.roster a).marks.ids) ∧
      (∀ a ∈ order, (after.world.roster a).marks = {}) ∧
      (∀ b, b ∉ order → after.world.roster b = sim.world.roster b) ∧
      ∀ a ∈ order, ∀ id ∈ (sim.world.roster a).marks.ids, ∀ r, sim.world.running? a id = some r →
        after.world.Taken r := by
  induction order generalizing sim with
  | nil => exact ⟨rfl, rfl, by simp, fun _ _ => rfl, by simp⟩
  | cons a rest ih =>
    obtain ⟨apart, distinct⟩ := List.nodup_cons.mp distinct
    have visits := visit_reclaims sound tidy heartbeat cluster a
    have visit := (plays_visit tidy heartbeat cluster a).1
    simp only [pull, pullCalls] at visits visit ⊢
    generalize (sim.world.snapshot a cluster).1 = snapshot at *
    generalize ({ sim with world := (sim.world.snapshot a cluster).2 } : Simulation) = handed at *
    generalize handed.reclaimAll a snapshot.preempted.ids = visited at *
    obtain ⟨given, ended, drained, beside, taken⟩ := visits
    have later : visited.2.world.Sound := visit.world ▸ sound.after _
    have plays := plays_pull (visit.tidy tidy) heartbeat cluster rest
    obtain ⟨records, ends, drains, keeps, takes⟩ := ih later (visit.tidy tidy) distinct
    have others : ∀ b ∈ rest, b ≠ a := fun b member same => apart (same ▸ member)
    have alike : ∀ b ∈ rest, visited.2.world.roster b = sim.world.roster b :=
      fun b member => beside b (others b member)
    refine ⟨?_, ?_, ?_, fun b absent => ?_, ?_⟩
    · have same : rest.flatMap (fun b => (visited.2.world.roster b).marks.ids.map (b, ·)) =
          rest.flatMap fun b => (sim.world.roster b).marks.ids.map (b, ·) :=
        List.flatMap_congr fun b member => by rw [alike b member]
      rw [List.flatMap_append, records, same, List.flatMap_cons, ← given]
      congr 1
      split
      · rename_i blank
        simp only [Snapshot.isEmpty, Bool.and_eq_true, Marks.isEmpty] at blank
        rw [Marks.ids, Table.isEmpty_iff.mp blank.2]
        rfl
      · exact List.flatMap_singleton _ _
    · have same : rest.flatMap (fun b => (visited.2.world.roster b).marks.ids) =
          rest.flatMap fun b => (sim.world.roster b).marks.ids :=
        List.flatMap_congr fun b member => by rw [alike b member]
      rw [← List.cons_append, World.gather_append, ended, ← visit.world, ends, same,
        List.flatMap_cons]
    · intro b member
      rcases List.mem_cons.mp member with rfl | member
      · rw [keeps b apart, drained]
      · exact drains b member
    · rw [keeps b fun member => absent (List.mem_cons_of_mem _ member),
        beside b fun same => absent (same ▸ List.mem_cons_self)]
    · intro b member id marked r runs
      rcases List.mem_cons.mp member with rfl | member
      · exact plays.world ▸ (taken id marked r runs).after later _
      · refine takes b member id ((alike b member).symm ▸ marked) r ?_
        rw [World.running?_roster, alike b member, ← World.running?_roster]
        exact runs

end Heartbeat

/-- The books are sound, lists are in order, and every attempt is listed once. -/
structure Steady (sim : Simulation) : Prop where
  sound : sim.world.Sound
  tidy : sim.world.Tidy
  lists : sim.world.Lists sim.order

theorem Steady.plays {calls : List Call} {told : Account} {sim' : Simulation} (steady : sim.Steady)
    (plays : Plays sim calls told sim') : sim'.Steady where
  sound := plays.world ▸ steady.sound.after calls
  tidy := plays.tidy steady.tidy
  lists := plays.world ▸ plays.order ▸ steady.lists.after steady.tidy calls

theorem Steady.act (steady : sim.Steady) (x : Act) : (sim.act x).Steady :=
  steady.plays (plays_act steady.tidy x)

theorem Steady.acts (steady : sim.Steady) (acts : List Act) : (acts.foldl Simulation.act sim).Steady :=
  steady.plays (plays_script steady.tidy acts)

theorem Steady.taken {r : RecordId} (steady : sim.Steady) (taken : sim.world.Taken r)
    (acts : List Act) : (acts.foldl Simulation.act sim).world.Taken r := by
  rw [(plays_script steady.tidy acts).world]
  exact taken.after steady.sound _

theorem wanted_same {sim' : Simulation} (order : sim'.order = sim.order)
    (marks : ∀ a, (sim'.world.roster a).marks = (sim.world.roster a).marks) :
    sim'.wanted = sim.wanted := by
  simp only [wanted, order, marks]

theorem wanted_act (steady : sim.Steady) (x : Act) :
    (sim.act x).wanted.length = match x with
      | .preempt => sim.wanted.length + sim.preemptionPass.1
      | .beat _ => 0
      | _ => sim.wanted.length := by
  have plays := plays_act steady.tidy x
  have kept : (∀ c ∈ sim.calls x, c.KeepsMarks) → (sim.act x).wanted = sim.wanted := by
    intro keep
    refine wanted_same plays.order fun a => ?_
    rw [plays.world, World.marks_after steady.tidy.toFiled keep]
  cases x with
  | preempt =>
    obtain ⟨new, count, _, grown, _⟩ := preemptTimes_marks steady.tidy steady.lists.distinct
      (sim.attempts.filter isStarving).length
    refine grown.length_eq.trans ?_
    rw [List.length_append, count, Nat.add_comm]
    rfl
  | beat heartbeat =>
    obtain ⟨_, _, drains, _⟩ := pull_reclaims steady.sound steady.tidy heartbeat
      sim.world.clusterResource steady.lists.distinct
    refine List.length_eq_zero_iff.mpr (List.flatMap_eq_nil_iff.mpr fun a member => ?_)
    have drained : (((sim.act (.beat heartbeat)).world.roster a).marks) = {} :=
      drains a (plays.order ▸ member)
    rw [drained]
    rfl
  | schedule worker round =>
    exact congrArg List.length
      (kept fun c member => (passCalls_schedule worker round c member).keepsMarks)
  | _ => exact congrArg List.length (kept (by simp [calls, Call.KeepsMarks]))

theorem wanted_acts (steady : sim.Steady) (acts : List Act) :
    (acts.foldl Simulation.act sim).wanted.length = sim.awaited sim.wanted.length acts := by
  induction acts generalizing sim with
  | nil => rfl
  | cons x acts ih =>
    refine (ih (steady.act x)).trans ?_
    rw [wanted_act steady x]
    cases x <;> rfl

theorem finishes_act (steady : sim.Steady) (x : Act) :
    sim.world.gather World.finishes (sim.calls x) =
      (sim.answer x).records.flatMap (·.snapshot.preempted.ids) := by
  have quiet : (sim.answer x).reclaimed = 0 → (sim.answer x).records = [] →
      sim.world.gather World.finishes (sim.calls x) =
        (sim.answer x).records.flatMap (·.snapshot.preempted.ids) := by
    intro none silent
    rw [List.length_eq_zero_iff.mp ((plays_act steady.tidy x).ended.trans none), silent]
    rfl
  cases x with
  | beat heartbeat =>
    obtain ⟨records, ends, _⟩ := pull_reclaims steady.sound steady.tidy heartbeat
      sim.world.clusterResource steady.lists.distinct
    have ids := congrArg (List.map Prod.snd) records
    simp only [List.map_flatMap, HeartbeatRecord.reclaims, List.map_map, Function.comp_def,
      List.map_id'] at ids
    exact ends.trans ids.symm
  | _ => exact quiet rfl rfl

theorem finishes_script (steady : sim.Steady) (acts : List Act) :
    sim.world.gather World.finishes (sim.script acts) =
      (sim.account acts).records.flatMap (·.snapshot.preempted.ids) := by
  induction acts generalizing sim with
  | nil => rfl
  | cons x acts ih =>
    have rest := ih (steady.act x)
    rw [(plays_act steady.tidy x).world] at rest
    rw [script, World.gather_append, finishes_act steady x, rest]
    exact List.flatMap_append.symm

theorem script_append (acts more : List Act) :
    sim.script (acts ++ more) = sim.script acts ++ (acts.foldl Simulation.act sim).script more := by
  induction acts generalizing sim with
  | nil => rfl
  | cons x acts ih => rw [List.cons_append, script, ih, script, List.append_assoc]; rfl

theorem beat_reclaims (steady : sim.Steady) (heartbeat : Nat) :
    let records := (sim.beat heartbeat).1
    (sim.beat heartbeat).2.1 = (records.flatMap (·.snapshot.preempted.ids)).length ∧
      (sim.beat heartbeat).2.1 = sim.wanted.length ∧
      ∀ x ∈ records.flatMap (·.reclaims),
        x.2 ∈ sim.world.gather World.finishes (sim.calls (.beat heartbeat)) ∧
        ∃ r, sim.world.running? x.1 x.2 = some r ∧ (sim.beat heartbeat).2.2.world.Taken r := by
  intro records
  obtain ⟨given, ends, _, _, taken⟩ := pull_reclaims steady.sound steady.tidy heartbeat
    sim.world.clusterResource steady.lists.distinct
  have told : _ = (sim.beat heartbeat).2.1 := (plays_act steady.tidy (.beat heartbeat)).ended
  have finished : sim.world.gather World.finishes (sim.calls (.beat heartbeat)) =
      records.flatMap (·.snapshot.preempted.ids) := finishes_act steady (.beat heartbeat)
  refine ⟨by rw [← told, finished], ?_, fun x member => ?_⟩
  · have ended : sim.world.gather World.finishes (sim.calls (.beat heartbeat)) = _ := ends
    rw [← told, ended, wanted, List.length_flatMap, List.length_flatMap]
    simp only [List.length_map]
  · have marked : x ∈ sim.wanted := (given ▸ member : x ∈ sim.order.flatMap _)
    obtain ⟨a, listed, own⟩ := List.mem_flatMap.mp marked
    obtain ⟨id, has, rfl⟩ := List.mem_map.mp own
    obtain ⟨r, live⟩ := Option.isSome_iff_exists.mp
      ((steady.tidy.orderly a).marked id (Table.mem_keys.mp has))
    have runs : sim.world.running? a id = some r := (World.running?_roster _ a id).trans live
    exact ⟨ends ▸ List.mem_flatMap.mpr ⟨a, listed, has⟩, r, runs, taken a listed id has r runs⟩

theorem build_steady {c : Cluster} (valid : c.validate = .ok ()) :
    ∃ sim, build c = .ok sim ∧ sim.world.Opening ∧ sim.Steady ∧ sim.nextContainer = 1 := by
  obtain ⟨sim, built, opening, _⟩ := build_opening valid
  obtain ⟨distinct, complete, first⟩ := build_order valid built
  exact ⟨sim, built, opening, ⟨opening.sound, opening.tidy, distinct, complete⟩, first⟩

theorem wanted_opening (opening : sim.world.Opening) : sim.wanted = [] := by
  refine List.flatMap_eq_nil_iff.mpr fun a _ => ?_
  rw [opening.roster_blank]
  rfl

theorem pass_marks (steady : sim.Steady) :
    ∃ new : List (AttemptId × ContainerId), new.length = sim.preemptionPass.1 ∧
      new.length ≤ (sim.attempts.filter isStarving).length ∧
      sim.preemptionPass.2.wanted ~ new ++ sim.wanted ∧ sim.preemptionPass.2.wanted.Nodup ∧
      ∀ x ∈ new, (sim.world.running? x.1 x.2).isSome ∧
        ∃ s, sim.world.attempts.get? x.1 = some s ∧ 1 < s.live.size := by
  obtain ⟨new, count, few, grown, sparable, _⟩ := preemptTimes_marks steady.tidy
    steady.lists.distinct (sim.attempts.filter isStarving).length
  refine ⟨new, count, few, grown, wanted_nodup (steady.act .preempt).lists.distinct, ?_⟩
  intro x member
  obtain ⟨live, plural, _⟩ := sparable x member
  rw [World.running?_roster]
  refine ⟨live, ?_⟩
  cases found : sim.world.attempts.get? x.1 with
  | none => simp [World.roster, found] at live
  | some s => exact ⟨s, rfl, by rwa [World.roster_of_found found] at plural⟩

theorem finished_script (opening : sim.world.Opening) (steady : sim.Steady) (acts : List Act) :
    (sim.world.gather World.finishes (sim.script acts)).Nodup ∧
      ∀ id ∈ sim.world.gather World.finishes (sim.script acts), ∀ a,
        (acts.foldl act sim).world.running? a id = none := by
  have plays := plays_script steady.tidy acts
  obtain ⟨attempts, drawn, _⟩ := plays.drawn
  rw [plays.world]
  exact World.finishes_distinct opening steady.lists (drawn ▸ namesFrom_nodup _ _)

/-- However a valid description is simulated: a preemption pass adds as many marks as it answers, one
    at most for each attempt that starves, all of them on live containers of attempts that have more
    than one. A heartbeat reclaims what its records give back, which is every mark that passes have
    answered for since the heartbeat before. What it reclaims was live, is completed as preempted with
    exit status -102 and is never live again, and no name is reclaimed twice. -/
theorem reclaims_accounted {c : Cluster} (valid : c.validate = .ok ()) :
    ∃ sim, build c = .ok sim ∧ ∀ acts : List Act,
      let now := acts.foldl act sim
      (∃ new : List (AttemptId × ContainerId), new.length = now.preemptionPass.1 ∧
        new.length ≤ (now.attempts.filter isStarving).length ∧
        now.preemptionPass.2.wanted.Perm (new ++ now.wanted) ∧ now.preemptionPass.2.wanted.Nodup ∧
        ∀ x ∈ new, (now.world.running? x.1 x.2).isSome ∧
          ∃ s, now.world.attempts.get? x.1 = some s ∧ 1 < s.live.size) ∧
      (∀ heartbeat,
        let records := (now.beat heartbeat).1
        let reclaimed := (now.beat heartbeat).2.1
        reclaimed = (records.flatMap (·.snapshot.preempted.ids)).length ∧
        reclaimed = sim.awaited 0 acts ∧
        ∀ x ∈ records.flatMap (·.reclaims), ∃ r, now.world.running? x.1 x.2 = some r ∧
          ∀ more : List Act,
            let later := (more.foldl act (now.beat heartbeat).2.2).world
            (∀ a, later.running? a x.2 = none) ∧ (later.record r).state = .completed ∧
              ∃ report, (later.record r).completion = some (report, .preempted) ∧
                report.exitStatus = -102 ∧
                report.diagnostics = "Container preempted by scheduler") ∧
      ((sim.account acts).records.flatMap (·.snapshot.preempted.ids)).Nodup := by
  obtain ⟨sim, built, opening, steady, first⟩ := build_steady valid
  have ended := finished_script opening steady
  refine ⟨sim, built, fun acts => ⟨pass_marks (steady.acts acts), fun heartbeat => ?_, ?_⟩⟩
  · have now := steady.acts acts
    have due := wanted_acts steady acts
    rw [wanted_opening opening, List.length_nil] at due
    obtain ⟨given, count, taken⟩ := beat_reclaims now heartbeat
    refine ⟨given, count.trans due, fun x member => ?_⟩
    obtain ⟨finished, r, runs, taken⟩ := taken x member
    refine ⟨r, runs, fun more => ?_⟩
    have final := (now.act (.beat heartbeat)).taken taken more
    have gone := (ended (acts ++ .beat heartbeat :: more)).2 x.2
    rw [List.foldl_append, script_append, script, World.gather_append,
      ← (plays_script steady.tidy acts).world, World.gather_append] at gone
    refine ⟨gone ?_, final.state, preemptedReport, final.completion, rfl, rfl⟩
    exact List.mem_append_right _ (List.mem_append_left _ finished)
  · exact finishes_script steady acts ▸ (ended acts).1

/-- Two passes before one heartbeat mark both containers of the attempt that fills the only node; the
    room goes to the attempt that starved. -/
theorem reclaims_accounted_sample :
    let c : Cluster := {
      nodes := [{ id := ⟨"n1"⟩, memoryMb := 4096, vcores := 2 }]
      queues := [{ name := ⟨"q"⟩ }]
      attempts := [
        { id := ⟨"a"⟩, user := "u", queue := ⟨"q"⟩
          requests := [⟨⟨1⟩, anyPlace, ⟨2048, 1⟩, 2, true, ""⟩] },
        { id := ⟨"b"⟩, user := "u", queue := ⟨"q"⟩ }] }
    let acts : List Act := [.schedule 0 1, .schedule 0 2,
      .request ⟨"b"⟩ [⟨⟨1⟩, anyPlace, ⟨2048, 1⟩, 1, true, ""⟩], .schedule 0 3, .preempt, .preempt]
    ∃ sim, build c = .ok sim ∧ ((acts.foldl act sim).beat 3).2.1 = 2 ∧
      let later := (([.schedule 0 4] : List Act).foldl act ((acts.foldl act sim).beat 3).2.2).world
      later.running? ⟨"a"⟩ ⟨"container_a_000002"⟩ = none ∧
        ∃ r report, (later.record r).state = .completed ∧
          (later.record r).completion = some (report, .preempted) ∧ report.exitStatus = -102 := by
  intro c acts
  obtain ⟨sim, built, holds⟩ := reclaims_accounted (show c.validate = .ok () by decide)
  obtain ⟨_, beats, _⟩ := holds acts
  obtain ⟨_, due, taken⟩ := beats 3
  have seen : (build c).toOption.map (fun sim => (sim.awaited 0 acts,
      ((acts.foldl act sim).beat 3).1.flatMap (·.reclaims))) =
      some (2, [(⟨"a"⟩, ⟨"container_a_000001"⟩), (⟨"a"⟩, ⟨"container_a_000002"⟩)]) := by
    decide +kernel
  rw [built] at seen
  obtain ⟨count, names⟩ := Prod.mk.inj (Option.some.inj seen)
  obtain ⟨r, _, final⟩ := taken (⟨"a"⟩, ⟨"container_a_000002"⟩) (by simp [names])
  obtain ⟨gone, completed, report, ending, status, _⟩ := final [.schedule 0 4]
  exact ⟨sim, built, due.trans count, gone ⟨"a"⟩, r, report, completed, ending, status⟩

end Simulation
end ClusterLedger
