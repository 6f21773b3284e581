import ClusterLedger.Proofs.Conservation
/- Names of containers along a run. Each name that comes up is live or was ended, as often as it came
   up. So a name that is drawn once ends once at most, and is not live again. -/
namespace ClusterLedger
open scoped List

theorem flatMap_grows {α : Type} {order : List AttemptId} {f f' : AttemptId → List α}
    {a : AttemptId} {l : List α} (distinct : order.Nodup) (member : a ∈ order)
    (others : ∀ b, b ≠ a → f' b = f b) (own : f' a ~ l ++ f a) :
    order.flatMap f' ~ l ++ order.flatMap f := by
  obtain ⟨before, later, rfl⟩ := List.append_of_mem member
  obtain ⟨_, tail, apart⟩ := List.nodup_append.mp distinct
  have front : before.flatMap f' = before.flatMap f :=
    List.flatMap_congr fun b there => others b fun same => apart b there a (by simp) same
  have rest : later.flatMap f' = later.flatMap f :=
    List.flatMap_congr fun b there => others b fun same =>
      (List.nodup_cons.mp tail).1 (same ▸ there)
  simp only [List.flatMap_append, List.flatMap_cons, front, rest]
  calc before.flatMap f ++ (f' a ++ later.flatMap f)
    _ ~ before.flatMap f ++ (l ++ f a ++ later.flatMap f) := (own.append_right _).append_left _
    _ = before.flatMap f ++ (l ++ (f a ++ later.flatMap f)) := by rw [List.append_assoc]
    _ ~ l ++ (before.flatMap f ++ (f a ++ later.flatMap f)) := List.perm_append_comm_assoc _ _ _

namespace World
variable {w w' : World} {a : AttemptId} {order : List AttemptId}

def names (w : World) (order : List AttemptId) : List ContainerId :=
  order.flatMap fun a => (w.roster a).live.keys

theorem course_names {d : Option Deed} (course : Course w w' a d) :
    (w.roster a).live.keys ++ (Deed.begun d).map (·.id) ~
      Deed.ended d ++ (w'.roster a).live.keys := by
  cases course with
  | @begins c r fresh known container idFree unreserved roster =>
    rw [roster]
    exact List.perm_append_comm.trans (Table.keys_insert_new r idFree).symm
  | @ends id live roster =>
    obtain ⟨r, found⟩ := Option.isSome_iff_exists.mp live
    rw [roster]
    simpa [Deed.begun, Deed.ended, Roster.drop] using Table.keys_of_get? found
  | marks live roster => simp [roster, Roster.mark, Deed.begun, Deed.ended]
  | delivers roster => simp [roster, Roster.deliver, Deed.begun, Deed.ended]
  | @reserves b r gone roster origin =>
    have left := (w.roster a).giveUp_within gone
    simp [roster, Roster.reserve, left.live, Deed.begun, Deed.ended]
  | frees roster => simp [roster, Roster.unreserve, Deed.begun, Deed.ended]
  | stays roster => simp [roster, Deed.begun, Deed.ended]

theorem call_names (tidy : w.Tidy) (lists : w.Lists order) (c : Call) :
    w.names order ++ (w.starts c).map (·.id) ~ w.finishes c ++ (w.perform c).names order := by
  have course := (passage_perform tidy.toFiled c).course
  generalize w.perform c = w' at *
  have each : ∀ a, (w.roster a).live.keys ++
        (if c.actor = some a then (w.starts c).map (·.id) else []) ~
      (if c.actor = some a then w.finishes c else []) ++ (w'.roster a).live.keys := by
    intro a
    have own := course_names (course a)
    by_cases actor : c.actor = some a
    · obtain ⟨begun, ended, _⟩ := deedOf_own (w := w) actor
      rw [begun, ended] at own
      simpa [actor] using own
    · rw [deedOf_other actor] at own
      simpa [actor, Deed.begun, Deed.ended] using own
  have started := flatMap_owner (l := (w.starts c).map (·.id)) lists.distinct
    fun some => lists.actor (.inl (by simpa using some))
  have finished := flatMap_owner (l := w.finishes c) lists.distinct
    fun some => lists.actor (.inr (.inl some))
  have whole := List.flatMap_append_perm order (fun a => (w.roster a).live.keys)
    fun a => if c.actor = some a then (w.starts c).map (·.id) else []
  have parts := List.flatMap_append_perm order
    (fun a => if c.actor = some a then w.finishes c else []) fun a => (w'.roster a).live.keys
  rw [started] at whole
  rw [finished] at parts
  exact whole.trans ((List.Perm.flatMap_left order fun a _ => each a).trans parts.symm)

theorem run_names (tidy : w.Tidy) (lists : w.Lists order) (calls : List Call) :
    w.names order ++ (w.gather starts calls).map (·.id) ~
      w.gather finishes calls ++ (w.after calls).names order := by
  induction calls generalizing w with
  | nil => simp [gather]
  | cons c calls ih =>
    have follows := (passage_perform tidy.toFiled c).follows
    have line := call_names tidy lists c
    have lines := ih (tidy.perform c) (lists.follows follows)
    rw [gather, gather, List.map_append, after_cons]
    calc w.names order ++ ((w.starts c).map (·.id) ++
          ((w.perform c).gather starts calls).map (·.id))
      _ = (w.names order ++ (w.starts c).map (·.id)) ++
          ((w.perform c).gather starts calls).map (·.id) := (List.append_assoc ..).symm
      _ ~ (w.finishes c ++ (w.perform c).names order) ++
          ((w.perform c).gather starts calls).map (·.id) := line.append_right _
      _ = w.finishes c ++ ((w.perform c).names order ++
          ((w.perform c).gather starts calls).map (·.id)) := List.append_assoc ..
      _ ~ w.finishes c ++ ((w.perform c).gather finishes calls ++
          ((w.perform c).after calls).names order) := lines.append_left _
      _ = w.finishes c ++ (w.perform c).gather finishes calls ++
          ((w.perform c).after calls).names order := (List.append_assoc ..).symm

theorem mem_names (lists : w.Lists order) {id : ContainerId} {r : RecordId}
    (runs : w.running? a id = some r) : id ∈ w.names order := by
  obtain ⟨s, found, live⟩ := Option.bind_eq_some_iff.mp runs
  refine List.mem_flatMap.mpr ⟨a, lists.complete a (by rw [found]; rfl), ?_⟩
  rw [roster_of_found found, Table.mem_keys]
  exact Option.isSome_iff_exists.mpr ⟨r, live⟩

theorem Opening.names (opening : w.Opening) (order : List AttemptId) : w.names order = [] := by
  refine List.flatMap_eq_nil_iff.mpr fun a _ => ?_
  rw [opening.roster_blank]
  rfl

theorem Lists.after (lists : w.Lists order) (tidy : w.Tidy) (calls : List Call) :
    (w.after calls).Lists order := by
  induction calls generalizing w with
  | nil => exact lists
  | cons c calls ih =>
    exact ih (lists.follows (passage_perform tidy.toFiled c).follows) (tidy.perform c)

/-- Where every name is drawn once, each ends once at most, and what ended is not live. -/
theorem finishes_distinct (opening : w.Opening) (lists : w.Lists order) {calls : List Call}
    (drawn : (calls.filterMap Call.drawn?).Nodup) : (w.gather finishes calls).Nodup ∧
      ∀ id ∈ w.gather finishes calls, ∀ a, (w.after calls).running? a id = none := by
  have balance := run_names opening.tidy lists calls
  rw [opening.names order, List.nil_append] at balance
  have distinct := balance.nodup_iff.mp ((starts_drawn w calls).nodup drawn)
  obtain ⟨ended, _, apart⟩ := List.nodup_append.mp distinct
  refine ⟨ended, fun id member a => ?_⟩
  by_contra live
  obtain ⟨r, runs⟩ := Option.ne_none_iff_exists'.mp live
  exact apart id member id (mem_names (lists.after opening.tidy calls) runs) rfl

end World
end ClusterLedger
