import ClusterLedger.Proofs.Delivery
import ClusterLedger.Proofs.Outcome
import Mathlib.Algebra.BigOperators.Group.List.Basic
import Mathlib.Data.List.Perm.Basic
/- Containers of all attempts together, along a run of calls: those that begin either end or are
   still live, and they wait until they are handed over. A call that ended a waiting container would
   take it out of the line, so runs are looked at where nothing waits of the attempt when one of its
   containers ends. -/
namespace ClusterLedger
open scoped List

namespace Deed

def begun : Option Deed → List Container
  | some (.begins c) => [c]
  | _ => []

def ended : Option Deed → List ContainerId
  | some (.ends id) => [id]
  | _ => []

end Deed

namespace World

def gather {α : Type} (yield : World → Call → List α) (w : World) : List Call → List α
  | [] => []
  | c :: calls => yield w c ++ (w.perform c).gather yield calls

def starts (w : World) : Call → List Container
  | .allocate a locality n priority container =>
    if (w.allocate a locality n priority container).1.isSome then [container] else []
  | _ => []

def finishes (w : World) : Call → List ContainerId
  | .complete a id report ending partition =>
    if (w.complete a id report ending partition).1 then [id] else []
  | _ => []

def hands (w : World) : Call → List Container
  | .snapshot a cluster => (w.snapshot a cluster).1.containers
  | _ => []

/-- Nothing of the attempt waits for a snapshot when one of its containers is ended. -/
def Late (w : World) : Call → Prop
  | .complete a .. => (w.roster a).undelivered = []
  | _ => True

def waits (w : World) (a : AttemptId) : List Container := (w.roster a).undelivered.map w.container

def population (w : World) (order : List AttemptId) : Nat :=
  (order.map fun a => (w.roster a).live.size).sum

variable {w w' : World} {a : AttemptId} {order : List AttemptId}

theorem after_append (w : World) (calls more : List Call) :
    w.after (calls ++ more) = (w.after calls).after more := by
  rw [after, List.foldl_append]
  rfl

theorem gather_append {α : Type} (yield : World → Call → List α) (w : World)
    (calls more : List Call) :
    w.gather yield (calls ++ more) = w.gather yield calls ++ (w.after calls).gather yield more := by
  induction calls generalizing w with
  | nil => rfl
  | cons c calls ih => simp only [List.cons_append, gather, ih, after_cons, List.append_assoc]

theorem Along.append {allowed : World → Call → Prop} {calls more : List Call}
    (first : Along allowed w calls) (second : Along allowed (w.after calls) more) :
    Along allowed w (calls ++ more) := by
  induction calls generalizing w with
  | nil => exact second
  | cons c calls ih => exact ⟨first.1, ih first.2 second⟩

/-- Everything is filed under its name, and the lists of every attempt are in order. -/
structure Tidy (w : World) : Prop extends Filed w where
  orderly : ∀ a, w.Orderly (w.roster a)

theorem Opening.tidy (opening : w.Opening) : w.Tidy := ⟨opening.filed, opening.orderly⟩

theorem Tidy.perform (tidy : w.Tidy) (c : Call) : (w.perform c).Tidy where
  toFiled := tidy.toFiled.follows (passage_perform tidy.toFiled c).follows
  orderly a := orderly_undergo tidy.toFiled (tidy.orderly a) (.call c)

theorem Tidy.after (tidy : w.Tidy) (calls : List Call) : (w.after calls).Tidy := by
  induction calls generalizing w with
  | nil => exact tidy
  | cons c calls ih => exact ih (tidy.perform c)

/- What a call yields is what its attempt's deed tells. -/
section Yields
variable {c : Call}

theorem deedOf_other (other : c.actor ≠ some a) : w.deedOf a c = none := by
  cases c <;> simp_all [Call.actor, deedOf]

theorem deedOf_own (own : c.actor = some a) :
    Deed.begun (w.deedOf a c) = w.starts c ∧ Deed.ended (w.deedOf a c) = w.finishes c ∧
      (if w.deedOf a c = some .delivers then w.waits a else []) = w.hands c := by
  cases c <;> simp only [Call.actor, Option.some.injEq, reduceCtorEq] at own
  all_goals subst own
  case allocate x locality n priority container =>
    by_cases made : (w.allocate x locality n priority container).1.isSome <;>
      simp [deedOf, starts, finishes, hands, made, Deed.begun, Deed.ended]
  case complete x id report ending partition =>
    by_cases done : (w.complete x id report ending partition).1 <;>
      simp [deedOf, starts, finishes, hands, done, Deed.begun, Deed.ended]
  case snapshot x cluster =>
    simp [deedOf, starts, finishes, hands, snapshot_containers, waits, Deed.begun, Deed.ended]
  case mark x id =>
    by_cases marked : (w.mark x id).1 <;>
      simp [deedOf, starts, finishes, hands, marked, Deed.begun, Deed.ended]
  case unreserve x priority n =>
    by_cases freed : (w.unreserve x priority n).1 <;>
      simp [deedOf, starts, finishes, hands, freed, Deed.begun, Deed.ended]
  case reserve x priority n existing container =>
    cases answer : w.reserve x priority n existing container <;>
      simp [deedOf, starts, finishes, hands, answer, Deed.begun, Deed.ended]
  case move x r source target =>
    by_cases moved : (w.moveReservation x r source target).1 <;>
      cases placed : (w.record r).reservedPriority <;>
      simp [deedOf, starts, finishes, hands, moved, placed, Deed.begun, Deed.ended]
  all_goals exact ⟨rfl, rfl, rfl⟩

end Yields

theorem course_balance {d : Option Deed} (follows : Follows w w')
    (orderly : w.Orderly (w.roster a)) (course : Course w w' a d)
    (late : ∀ id, d = some (.ends id) → (w.roster a).undelivered = []) :
    w.waits a ++ Deed.begun d =
      (if d = some .delivers then w.waits a else []) ++ w'.waits a ∧
    (w.roster a).live.size + (Deed.begun d).length =
      (w'.roster a).live.size + (Deed.ended d).length := by
  have same : (w.roster a).undelivered.map w'.container = w.waits a :=
    List.map_congr_left fun r member => (follows.records r (orderly.waits_known member)).2
  cases course with
  | @begins c r fresh known container idFree unreserved roster =>
    have grown := Table.size_insert (w.roster a).live c.id r
    rw [Table.erase_of_absent idFree] at grown
    simp [waits, roster, Roster.begin, Deed.begun, Deed.ended, same, container, grown]
  | @ends id live roster =>
    obtain ⟨r, found⟩ := Option.isSome_iff_exists.mp live
    have left := Table.size_erase found
    simp [waits, roster, Roster.drop, Deed.begun, Deed.ended, late id rfl, left]
  | marks live roster => simp [waits, roster, Roster.mark, Deed.begun, Deed.ended, same]
  | delivers roster => simp [waits, roster, Roster.deliver, Deed.begun, Deed.ended]
  | @reserves b r gone roster origin =>
    have left := (w.roster a).giveUp_within gone
    simp [waits, roster, Roster.reserve, left.undelivered, left.live, Deed.begun, Deed.ended, same]
  | frees roster => simp [waits, roster, Roster.unreserve, Deed.begun, Deed.ended, same]
  | stays roster => simp [waits, roster, Deed.begun, Deed.ended, same]

theorem mark_fresh {a : AttemptId} {id : ContainerId} (live : ((w.roster a).live.get? id).isSome)
    (idle : (w.roster a).marks.has id = false) : (w.mark a id).1 = true ∧
      ∀ b, (w.mark a id).2.roster b = if b = a then (w.roster a).mark id else w.roster b := by
  cases found : w.attempts.get? a with
  | none => simp [roster, found] at live
  | some s =>
    rw [roster_of_found found] at live idle ⊢
    simp only [Attempt.roster] at live idle
    have marked : w.mark a id =
        (true, w.updateAttempt a fun s' => { s' with marks := (s.marks.mark id).2 }) := by
      simp [mark, found, Attempt.isLive, Table.contains, live, Marks.mark, idle]
    simp only [marked, roster_updateAttempt w a found]
    exact ⟨trivial, fun b => rfl⟩

theorem snapshot_roster (filed : w.Filed) (a : AttemptId) (cluster : Resource) :
    (w.snapshot a cluster).2.roster a = (w.roster a).deliver := by
  have course := (passage_perform filed (.snapshot a cluster)).course a
  simp only [deedOf, ↓reduceIte] at course
  cases course with
  | delivers roster => exact roster

theorem snapshot_idle (tidy : w.Tidy) (a : AttemptId) (cluster : Resource) :
    ((w.snapshot a cluster).2.roster a).undelivered = [] :=
  congrArg Roster.undelivered (snapshot_roster tidy.toFiled a cluster)

structure Lists (w : World) (order : List AttemptId) : Prop where
  distinct : order.Nodup
  complete : ∀ a, (w.attempts.get? a).isSome → a ∈ order

theorem Lists.follows (lists : w.Lists order) (follows : Follows w w') : w'.Lists order where
  distinct := lists.distinct
  complete := by
    intro a known
    refine lists.complete a ?_
    have same := congrArg Option.isSome (follows.attempts a)
    simpa [known] using same.symm

theorem flatMap_owner {α : Type} {l : List α} {owner : Option AttemptId} (distinct : order.Nodup)
    (listed : l ≠ [] → ∃ a ∈ order, owner = some a) :
    order.flatMap (fun a => if owner = some a then l else []) = l := by
  by_cases nothing : l = []
  · simp [nothing]
  · obtain ⟨a, member, rfl⟩ := listed nothing
    obtain ⟨before, later, rfl⟩ := List.append_of_mem member
    have others : ∀ l' : List AttemptId, a ∉ l' →
        l'.flatMap (fun b => if some a = some b then l else []) = [] := by
      intro l' apart
      refine List.flatMap_eq_nil_iff.mpr fun b there => if_neg ?_
      rintro same
      exact apart (Option.some.inj same ▸ there)
    obtain ⟨_, tail, apart⟩ := List.nodup_append.mp distinct
    have front : a ∉ before := fun there => apart a there a (by simp) rfl
    rw [List.flatMap_append, List.flatMap_cons, others before front,
      others later (List.nodup_cons.mp tail).1, if_pos rfl, List.append_nil, List.nil_append]

theorem Lists.actor (lists : w.Lists order) {c : Call}
    (yields : w.starts c ≠ [] ∨ w.finishes c ≠ [] ∨ w.hands c ≠ []) :
    ∃ a ∈ order, c.actor = some a := by
  have known : ∃ a, c.actor = some a ∧ (w.attempts.get? a).isSome := by
    cases c with
    | allocate a locality n priority container =>
      refine ⟨a, rfl, Option.isSome_iff_ne_none.mpr fun none => ?_⟩
      simp [starts, finishes, hands, allocate, none] at yields
    | complete a id report ending partition =>
      refine ⟨a, rfl, Option.isSome_iff_ne_none.mpr fun none => ?_⟩
      simp [starts, finishes, hands, World.complete, none] at yields
    | snapshot a cluster =>
      refine ⟨a, rfl, Option.isSome_iff_ne_none.mpr fun none => ?_⟩
      simp [starts, finishes, hands, snapshot, none] at yields
    | _ => simp [starts, finishes, hands] at yields
  obtain ⟨a, own, known⟩ := known
  exact ⟨a, lists.complete a known, own⟩

theorem late_ends {c : Call} (late : w.Late c) (actor : c.actor = some a)
    (done : w.finishes c ≠ []) : (w.roster a).undelivered = [] := by
  cases c with
  | complete x id report ending partition =>
    obtain rfl : x = a := Option.some.inj actor
    exact late
  | _ => simp [finishes] at done

theorem call_balance (tidy : w.Tidy) (lists : w.Lists order) {c : Call} (late : w.Late c) :
    (order.flatMap w.waits ++ w.starts c).Perm
        (w.hands c ++ order.flatMap (w.perform c).waits) ∧
      w.population order + (w.starts c).length =
        (w.perform c).population order + (w.finishes c).length := by
  obtain ⟨follows, course⟩ := passage_perform tidy.toFiled c
  generalize w.perform c = w' at *
  -- Each attempt is in balance by itself; only the actor's share of what the call yields is not empty.
  have each : ∀ a, w.waits a ++ (if c.actor = some a then w.starts c else []) =
        (if c.actor = some a then w.hands c else []) ++ w'.waits a ∧
      (w.roster a).live.size + (if c.actor = some a then w.starts c else []).length =
        (w'.roster a).live.size + (if c.actor = some a then w.finishes c else []).length := by
    intro a
    have own := course_balance follows (tidy.orderly a) (course a)
    by_cases actor : c.actor = some a
    · obtain ⟨begun, ended, handed⟩ := deedOf_own (w := w) actor
      rw [begun, ended, handed] at own
      simp only [if_pos actor]
      refine own fun id done => late_ends late actor ?_
      rw [← ended, done]
      exact List.cons_ne_nil id []
    · rw [deedOf_other actor] at own
      simpa [actor, Deed.begun, Deed.ended] using own
  have started := flatMap_owner (l := w.starts c) lists.distinct fun some => lists.actor (.inl some)
  have finished := flatMap_owner (l := w.finishes c) lists.distinct
    fun some => lists.actor (.inr (.inl some))
  have handed := flatMap_owner (l := w.hands c) lists.distinct
    fun some => lists.actor (.inr (.inr some))
  constructor
  · have whole := List.flatMap_append_perm order w.waits
      fun a => if c.actor = some a then w.starts c else []
    have parts := List.flatMap_append_perm order
      (fun a => if c.actor = some a then w.hands c else []) w'.waits
    rw [started] at whole
    rw [handed, ← funext fun a => (each a).1] at parts
    exact whole.trans parts.symm
  · have lengths := congrArg List.length started
    have lengths' := congrArg List.length finished
    rw [List.length_flatMap] at lengths lengths'
    have sums := congrArg List.sum (List.map_congr_left (l := order) fun a _ => (each a).2)
    simp only [List.sum_map_add] at sums
    rw [lengths, lengths'] at sums
    exact sums

/-- Along a run, what begins is handed over or waits, and ends or is live. -/
theorem run_balance (tidy : w.Tidy) (lists : w.Lists order) {calls : List Call}
    (late : Along Late w calls) :
    (order.flatMap w.waits ++ w.gather starts calls).Perm
        (w.gather hands calls ++ order.flatMap (w.after calls).waits) ∧
      w.population order + (w.gather starts calls).length =
        (w.after calls).population order + (w.gather finishes calls).length := by
  induction calls generalizing w with
  | nil => simp [gather]
  | cons c calls ih =>
    have follows := (passage_perform tidy.toFiled c).follows
    obtain ⟨line, live⟩ := call_balance tidy lists late.1
    obtain ⟨lines, lives⟩ := ih (tidy.perform c) (lists.follows follows) late.2
    simp only [gather, after_cons, List.length_append]
    constructor
    · calc order.flatMap w.waits ++ (w.starts c ++ (w.perform c).gather starts calls)
        _ = (order.flatMap w.waits ++ w.starts c) ++ (w.perform c).gather starts calls :=
          (List.append_assoc ..).symm
        _ ~ (w.hands c ++ order.flatMap (w.perform c).waits) ++
            (w.perform c).gather starts calls := line.append_right _
        _ = w.hands c ++ (order.flatMap (w.perform c).waits ++
            (w.perform c).gather starts calls) := List.append_assoc ..
        _ ~ w.hands c ++ ((w.perform c).gather hands calls ++
            order.flatMap ((w.perform c).after calls).waits) := lines.append_left _
        _ = w.hands c ++ (w.perform c).gather hands calls ++
            order.flatMap ((w.perform c).after calls).waits := (List.append_assoc ..).symm
    · omega

theorem idle_after (tidy : w.Tidy) {calls : List Call} (quiet : w.gather starts calls = [])
    (idle : (w.roster a).undelivered = []) : ((w.after calls).roster a).undelivered = [] := by
  induction calls generalizing w with
  | nil => exact idle
  | cons c calls ih =>
    obtain ⟨follows, course⟩ := passage_perform tidy.toFiled c
    obtain ⟨none, quiet⟩ := List.append_eq_nil_iff.mp quiet
    refine ih (tidy.perform c) quiet ?_
    have begun : Deed.begun (w.deedOf a c) = [] := by
      by_cases actor : c.actor = some a
      · rw [(deedOf_own actor).1, none]
      · rw [deedOf_other actor]
        rfl
    have line := (course_balance follows (tidy.orderly a) (course a) fun _ _ => idle).1
    rw [begun, waits, idle] at line
    simp only [List.map_nil, ite_self, List.nil_append] at line
    exact List.map_eq_nil_iff.mp line.symm

end World
end ClusterLedger
