import ClusterLedger.Proofs.Reclaim
import Mathlib.Data.List.DropRight
/- What a preemption pass comes to. Marks do not show in what a victim is chosen by, so a pass has one
   victim, and marks the last of its containers by name, one for each attempt that starves. -/
namespace ClusterLedger

namespace World

/-- The live containers of an attempt that have no mark, in the order of their names. -/
def unmarked (w : World) (a : AttemptId) : List ContainerId :=
  (w.roster a).live.keys.filter fun id => !(w.roster a).marks.has id

variable {w w' : World} {a : AttemptId} {id : ContainerId}

theorem mem_unmarked : id ∈ w.unmarked a ↔
    ((w.roster a).live.get? id).isSome ∧ (w.roster a).marks.has id = false := by
  simp [unmarked, Table.mem_keys]

theorem unmarked_nodup (w : World) (a : AttemptId) : (w.unmarked a).Nodup :=
  (w.roster a).live.keys_nodup.filter _

theorem unmarked_mark {rest : List ContainerId} (split : w.unmarked a = rest ++ [id])
    (roster : w'.roster a = (w.roster a).mark id) : w'.unmarked a = rest := by
  have apart := unmarked_nodup w a
  rw [split, List.nodup_append] at apart
  have kept : w'.unmarked a = (w.unmarked a).filter (· ≠ id) := by
    simp only [unmarked, roster, Roster.mark, List.filter_filter, Marks.has_mark]
    exact List.filter_congr fun other _ => by simp
  have others : rest.filter (· ≠ id) = rest :=
    List.filter_eq_self.mpr fun other member => by simpa using apart.2.2 other member id (by simp)
  rw [kept, split, List.filter_append, others]
  simp

theorem mark_attempts (filed : w.Filed) (a : AttemptId) (id : ContainerId) :
    ∃ g : Attempt → Attempt, (∀ s, (g s).id = s.id ∧ (g s).usage = s.usage ∧ (g s).live = s.live) ∧
      ∀ b, (w.perform (.mark a id)).attempts.get? b = (w.attempts.get? b).map g := by
  rcases mark_cases (w := w) a id with refused | ⟨s, _, _, answer⟩
  · exact ⟨fun s => s, fun _ => ⟨rfl, rfl, rfl⟩, fun b => by simp [perform, refused]⟩
  · refine ⟨fun s' => if s'.id = a then { s' with marks := (s.marks.mark id).2 } else s',
      fun s' => ?_, fun b => ?_⟩
    · dsimp only
      split <;> exact ⟨rfl, rfl, rfl⟩
    · simp only [perform, answer, updateAttempt_attempts]
      split
      · rename_i own
        subst own
        refine Option.map_congr fun s' found => ?_
        rw [if_pos (filed.attempts b s' found)]
      · rename_i other
        cases found : w.attempts.get? b with
        | none => rfl
        | some s' => simp [filed.attempts b s' found, other]

theorem mark_roster (unmarked : id ∈ w.unmarked a) (b : AttemptId) :
    (w.perform (.mark a id)).roster b = if b = a then (w.roster a).mark id else w.roster b := by
  obtain ⟨live, idle⟩ := mem_unmarked.mp unmarked
  exact (mark_fresh live idle).2 b

theorem after_marks {gone kept : List ContainerId} (split : (w.unmarked a).reverse = gone ++ kept) :
    (w.after (gone.map (Call.mark a))).unmarked a = kept.reverse ∧
      (∀ b, b ≠ a → (w.after (gone.map (Call.mark a))).roster b = w.roster b) ∧
      ∀ b, ((w.after (gone.map (Call.mark a))).roster b).live = (w.roster b).live := by
  induction gone generalizing w with
  | nil => exact ⟨by simpa using congrArg List.reverse split, fun _ _ => rfl, fun _ => rfl⟩
  | cons id gone ih =>
    have last : w.unmarked a = (gone ++ kept).reverse ++ [id] := by
      simpa using congrArg List.reverse split
    have member : id ∈ w.unmarked a := by simp [last]
    have first := mark_roster member
    have left := unmarked_mark last ((first a).trans (if_pos rfl))
    obtain ⟨rest, beside, live⟩ := ih (by rw [left, List.reverse_reverse])
    refine ⟨rest, fun b other => (beside b other).trans ((first b).trans (if_neg other)), fun b => ?_⟩
    rw [List.map_cons, after_cons, live b, first b]
    split
    · rename_i own
      rw [own, Roster.mark]
    · rfl

end World

namespace Simulation
variable {sim sim' : Simulation} {victim : Attempt}

def starving (sim : Simulation) : Nat := (sim.attempts.filter isStarving).length

def larger (best : Option Attempt) (s : Attempt) : Option Attempt :=
  some (match best with
    | none => s
    | some b => if usesMore s b then s else b)

theorem victim?_eq (sim : Simulation) :
    sim.victim? = (sim.attempts.filter (1 < ·.live.size)).foldl larger none := rfl

/-- What attempts are taken for does not show in what victims are chosen by. -/
theorem victim_map {g : Attempt → Attempt} (keeps : ∀ s, (g s).id = s.id ∧ (g s).usage = s.usage ∧
    (g s).live = s.live) (attempts : sim'.attempts = sim.attempts.map g) :
    sim'.victim? = sim.victim?.map g := by
  have more : ∀ s b, usesMore (g s) (g b) = usesMore s b := by
    intro s b
    simp only [usesMore, keeps]
  have along : ∀ (l : List Attempt) (best : Option Attempt),
      (l.map g).foldl larger (best.map g) = (l.foldl larger best).map g := by
    intro l
    induction l with
    | nil => exact fun best => rfl
    | cons s l ih =>
      intro best
      rw [List.map_cons, List.foldl_cons, List.foldl_cons, ← ih]
      congr 1
      cases best with
      | none => rfl
      | some b =>
        simp only [larger, Option.map_some, more]
        split <;> rfl
  have plural : (sim.attempts.map g).filter (1 < ·.live.size) =
      (sim.attempts.filter (1 < ·.live.size)).map g := by
    simp [List.filter_map, Function.comp_def, keeps]
  rw [victim?_eq, victim?_eq, attempts, plural]
  exact along _ none

theorem newest_unmarked (found : sim.world.attempts.get? victim.id = some victim) :
    victim.live.keys.reverse.find? (!victim.marks.has ·) =
      (sim.world.unmarked victim.id).getLast? := by
  rw [World.unmarked, World.roster_of_found found]
  exact (List.getLast?_filter ..).symm

theorem victim_found (filed : sim.world.Filed) (chosen : sim.victim? = some victim) :
    sim.world.attempts.get? victim.id = some victim := by
  obtain ⟨member, _⟩ := victim_among chosen
  obtain ⟨a, _, found⟩ := List.mem_filterMap.mp member
  rw [filed.attempts a victim found]
  exact found

theorem preemptOne_marked (filed : sim.world.Filed) (chosen : sim.victim? = some victim)
    {rest : List ContainerId} {id : ContainerId}
    (split : sim.world.unmarked victim.id = rest ++ [id]) :
    let marked : Simulation := { sim with world := sim.world.perform (.mark victim.id id) }
    (sim.preemptOne victim).2 = marked ∧
      (∃ again, marked.victim? = some again ∧ again.id = victim.id) ∧
      marked.world.unmarked victim.id = rest := by
  intro marked
  have last := (newest_unmarked (victim_found filed chosen)).trans (by rw [split, List.getLast?_concat])
  refine ⟨?_, ?_, ?_⟩
  · simp only [preemptOne, last]
    rfl
  · obtain ⟨g, keeps, attempts⟩ := World.mark_attempts filed victim.id id
    have mapped : marked.attempts = sim.attempts.map g := by
      simp only [Simulation.attempts, List.map_filterMap]
      exact List.filterMap_congr fun b _ => attempts b
    exact ⟨g victim, by rw [victim_map keeps mapped, chosen]; rfl, (keeps victim).1⟩
  · have member : id ∈ sim.world.unmarked victim.id := by simp [split]
    exact World.unmarked_mark split ((World.mark_roster member victim.id).trans (if_pos rfl))

/-- A pass makes the victim's last containers marked, one after another. -/
theorem markCalls_eq (filed : sim.world.Filed) (chosen : sim.victim? = some victim) (count : Nat) :
    sim.markCalls count =
      ((sim.world.unmarked victim.id).reverse.take count).map (Call.mark victim.id) := by
  induction count generalizing sim victim with
  | zero => rfl
  | succ count ih =>
    have newest := newest_unmarked (victim_found filed chosen)
    simp only [markCalls, chosen]
    rcases List.eq_nil_or_concat (sim.world.unmarked victim.id) with none | ⟨rest, id, split⟩
    · have idle : (sim.preemptOne victim).2 = sim := by
        simp [preemptOne, newest, none]
      rw [newest, idle, ih filed chosen, none]
      simp
    · rw [List.concat_eq_append] at split
      obtain ⟨same, ⟨again, chosen', named⟩, left⟩ := preemptOne_marked filed chosen split
      have later := filed.follows (World.passage_perform filed (.mark victim.id id)).follows
      rw [newest, same, ih later chosen', named, left, split]
      simp

theorem markCalls_none (none : sim.victim? = none) (count : Nat) : sim.markCalls count = [] := by
  cases count with
  | zero => rfl
  | succ count => simp [markCalls, none]

def claimed (sim : Simulation) (a : AttemptId) : Nat :=
  if sim.victim?.any (·.id = a) then sim.starving else 0

theorem pass_unmarked (filed : sim.world.Filed) (a : AttemptId) :
    sim.preemptionPass.2.world.unmarked a = (sim.world.unmarked a).rdrop (sim.claimed a) ∧
      (sim.preemptionPass.2.world.roster a).live = (sim.world.roster a).live := by
  have world : sim.preemptionPass.2.world = sim.world.after (sim.markCalls sim.starving) :=
    (plays_marks sim _).world
  cases chosen : sim.victim? with
  | none => simp [world, markCalls_none chosen, claimed, chosen]
  | some victim =>
    obtain ⟨left, beside, live⟩ := World.after_marks
      (List.take_append_drop sim.starving (sim.world.unmarked victim.id).reverse).symm
    rw [world, markCalls_eq filed chosen]
    refine ⟨?_, live a⟩
    by_cases own : a = victim.id
    · subst own
      rw [left, claimed, chosen, List.rdrop_eq_reverse_drop_reverse]
      simp
    · have idle : sim.claimed a = 0 := by simp [claimed, chosen, Ne.symm own]
      rw [idle, List.rdrop_zero, World.unmarked, beside a own, World.unmarked]

section Heartbeat
variable {a : AttemptId}

theorem reclaim_live (a : AttemptId) (id : ContainerId) :
    ((sim.reclaim a id).2.world.roster a).live = (sim.world.roster a).live.erase id := by
  cases runs : (sim.world.attempts.get? a).bind (·.live.get? id) with
  | none =>
    have absent : (sim.world.roster a).live.get? id = none :=
      (World.running?_roster sim.world a id).symm.trans runs
    simp only [reclaim, runs, Table.erase_of_absent absent]
  | some r =>
    obtain ⟨s, found, live⟩ := Option.bind_eq_some_iff.mp runs
    simp only [reclaim, runs]
    obtain ⟨w', answer, _, roster⟩ := World.complete_drop found live preemptedReport .preempted
      (sim.world.record r).partition
    simp only [answer, ↓reduceIte, World.roster_updateNode]
    exact congrArg Roster.live ((roster a).trans (if_pos rfl))

theorem reclaimAll_live (a : AttemptId) (ids : List ContainerId) :
    ((sim.reclaimAll a ids).2.world.roster a).live.keys =
      (sim.world.roster a).live.keys.filter (· ∉ ids) := by
  induction ids generalizing sim with
  | nil => simp [reclaimAll]
  | cons id ids ih =>
    calc ((sim.reclaimAll a (id :: ids)).2.world.roster a).live.keys
        = ((sim.reclaim a id).2.world.roster a).live.keys.filter (· ∉ ids) := ih
      _ = (sim.world.roster a).live.keys.filter (· ∉ id :: ids) := by
        rw [reclaim_live, Table.keys_erase, List.filter_filter]
        exact List.filter_congr fun other _ => by simp [Bool.and_comm]

theorem visit_live (tidy : sim.world.Tidy) (cluster : Resource) (a : AttemptId) :
    let snapshot := (sim.world.snapshot a cluster).1
    let handed := { sim with world := (sim.world.snapshot a cluster).2 }
    ((handed.reclaimAll a snapshot.preempted.ids).2.world.roster a).live.keys =
      sim.world.unmarked a := by
  intro snapshot handed
  have delivered : handed.world.roster a = (sim.world.roster a).deliver :=
    World.snapshot_roster tidy.toFiled a cluster
  rw [reclaimAll_live, delivered, World.snapshot_preempted]
  refine List.filter_congr fun id _ => ?_
  have listed : id ∈ (sim.world.roster a).marks.ids ↔ (sim.world.roster a).marks.has id = true :=
    Table.mem_keys
  simp [listed]

theorem pull_live (sound : sim.world.Sound) (tidy : sim.world.Tidy) (heartbeat : Nat)
    (cluster : Resource) {order : List AttemptId} (distinct : order.Nodup) :
    ∀ a ∈ order, ((sim.pull heartbeat cluster order).2.2.world.roster a).live.keys =
      sim.world.unmarked a := by
  induction order generalizing sim with
  | nil => simp
  | cons first rest ih =>
    obtain ⟨apart, distinct⟩ := List.nodup_cons.mp distinct
    obtain ⟨_, _, _, beside, _⟩ := visit_reclaims sound tidy heartbeat cluster first
    have visit := (plays_visit tidy heartbeat cluster first).1
    have left := visit_live tidy cluster first
    simp only [pull] at visit beside left ⊢
    generalize (Simulation.reclaimAll _ first _).2 = visited at *
    have later : visited.world.Sound := visit.world ▸ sound.after _
    intro a member
    rcases List.mem_cons.mp member with same | member
    · obtain ⟨_, _, _, keeps, _⟩ := pull_reclaims later (visit.tidy tidy) heartbeat cluster distinct
      rw [same, keeps first apart, left]
    · have other : a ≠ first := fun same => apart (same ▸ member)
      rw [ih later (visit.tidy tidy) distinct a member, World.unmarked, beside a other, World.unmarked]

end Heartbeat

end Simulation
end ClusterLedger
