import ClusterLedger.Proofs.NameOrder
import ClusterLedger.Proofs.Preemption
/- Which containers are preempted first. A pass takes the last names, and means the highest numbers by
   that. -/
namespace ClusterLedger

namespace World
variable {w : World} {a : AttemptId} {id : ContainerId}

theorem unmarked_last {rest : List ContainerId} (split : w.unmarked a = rest ++ [id]) :
    ∀ other ∈ w.unmarked a, other ≠ id → compare other id = .lt := by
  have ordered : (w.unmarked a).Pairwise fun x y => compare x y = .lt := by
    refine List.Pairwise.filter _ ?_
    exact List.pairwise_map.mpr ((w.roster a).live.ascending)
  rw [split, List.pairwise_append] at ordered
  intro other member apart
  rw [split, List.mem_append, List.mem_singleton] at member
  exact ordered.2.2 other (member.resolve_right apart) id (List.mem_singleton_self id)

def Drawn (w : World) : Prop :=
  ∀ a id, (w.running? a id).isSome → ∃ n, id = Simulation.nameAt a n

def drawnAt (w : World) (numbers : List Nat) : Bool :=
  w.attempts.entries.all fun e => e.2.live.keys.all fun id =>
    numbers.any fun n => id = Simulation.nameAt e.1 n

theorem drawn_of_drawnAt {numbers : List Nat} (check : w.drawnAt numbers = true) : w.Drawn := by
  intro a id runs
  obtain ⟨r, running⟩ := Option.isSome_iff_exists.mp runs
  obtain ⟨s, found, live⟩ := Option.bind_eq_some_iff.mp running
  simp only [drawnAt, List.all_eq_true, List.any_eq_true, decide_eq_true_eq] at check
  obtain ⟨n, _, named⟩ := check (a, s) (Table.mem_entries.mpr found) id
    (Table.mem_keys.mpr (Option.isSome_iff_exists.mpr ⟨r, live⟩))
  exact ⟨n, named⟩

end World

namespace Simulation
variable {sim : Simulation} {a : AttemptId}

theorem highest_exists {l : List ContainerId} (drawn : ∀ id ∈ l, ∃ n, id = nameAt a n)
    (nonempty : l ≠ []) : ∃ n, nameAt a n ∈ l ∧ ∀ m, nameAt a m ∈ l → m ≤ n := by
  induction l with
  | nil => exact absurd rfl nonempty
  | cons id l ih =>
    obtain ⟨n, rfl⟩ := drawn id List.mem_cons_self
    by_cases alone : l = []
    · subst alone
      refine ⟨n, List.mem_cons_self, fun m member => ?_⟩
      exact (nameAt_number (List.mem_singleton.mp member)).le
    · obtain ⟨top, there, highest⟩ := ih (fun id member => drawn id (List.mem_cons_of_mem _ member))
        alone
      rcases Nat.le_total n top with le | le
      · refine ⟨top, List.mem_cons_of_mem _ there, fun m member => ?_⟩
        rcases List.mem_cons.mp member with same | later
        · exact (nameAt_number same).le.trans le
        · exact highest m later
      · refine ⟨n, List.mem_cons_self, fun m member => ?_⟩
        rcases List.mem_cons.mp member with same | later
        · exact (nameAt_number same).le
        · exact (highest m later).trans le

theorem last_is_highest_iff {l : List ContainerId} {id : ContainerId} {n : Nat}
    (drawn : ∃ m, id = nameAt a m) (member : id ∈ l)
    (last : ∀ other ∈ l, other ≠ id → compare other id = .lt)
    (there : nameAt a n ∈ l) (highest : ∀ m, nameAt a m ∈ l → m ≤ n) :
    id = nameAt a n ↔ ∀ m, nameAt a m ∈ l → m ≤ n / 10 ^ (width n - width m) := by
  constructor
  · rintro rfl m other
    rcases (highest m other).eq_or_lt with rfl | lt
    · simp
    · have apart : nameAt a m ≠ nameAt a n := fun same => lt.ne (nameAt_number same)
      exact (nameAt_lt_iff a lt).mp (last _ other apart)
  · intro leads
    obtain ⟨m, rfl⟩ := drawn
    by_contra apart
    have lt : m < n := (highest m member).lt_of_ne fun same => apart (by rw [same])
    have before := (nameAt_lt_iff a lt).mpr (leads m member)
    have after := last _ there (Ne.symm apart)
    rw [Std.OrientedCmp.gt_of_lt before] at after
    simp at after

theorem markCalls_last (filed : sim.world.Filed) {count : Nat} {before later : List Call}
    {id : ContainerId} (split : sim.markCalls count = before ++ .mark a id :: later) :
    ∃ rest, (sim.world.after before).unmarked a = rest ++ [id] ∧
      ∀ b, ((sim.world.after before).roster b).live = (sim.world.roster b).live := by
  cases chosen : sim.victim? with
  | none =>
    rw [markCalls_none chosen] at split
    simp at split
  | some victim =>
    rw [markCalls_eq filed chosen] at split
    obtain ⟨gone, rest, taken, rfl, tail⟩ := List.map_eq_append_iff.mp split
    obtain ⟨id', kept, rfl, same, rfl⟩ := List.map_eq_cons_iff.mp tail
    obtain ⟨rfl, rfl⟩ := Call.mark.inj same
    have whole : (sim.world.unmarked victim.id).reverse = gone ++ (id' :: kept ++
        (sim.world.unmarked victim.id).reverse.drop count) := by
      rw [← List.append_assoc, ← taken, List.take_append_drop]
    obtain ⟨left, _, live⟩ := World.after_marks whole
    exact ⟨_, by rw [left, List.cons_append, List.reverse_cons], live⟩

theorem calls_preempt (filed : sim.world.Filed) :
    ∀ call ∈ sim.calls .preempt, ∃ a id, call = .mark a id := by
  intro call member
  cases chosen : sim.victim? with
  | none => simp [calls, markCalls_none chosen] at member
  | some victim =>
    rw [calls, markCalls_eq filed chosen] at member
    obtain ⟨id, _, rfl⟩ := List.mem_map.mp member
    exact ⟨victim.id, id, rfl⟩

/-- In every state of a simulation in which what runs goes by names that were drawn, whatever their
    numbers: each mark that a pass sets is on a container that runs without a mark. That is the one
    with the highest number if and only if no number among them exceeds what leads the highest, in as
    many digits as the name of the lower one has. -/
theorem marks_highest_iff_leads {c : Cluster} (valid : c.validate = .ok ()) :
    ∃ sim, build c = .ok sim ∧ ∀ (run : List Call) (next : Nat),
      let now : Simulation := { sim with world := sim.world.after run, nextContainer := next }
      now.world.Drawn →
      (now.act .preempt).world = now.world.after (now.calls .preempt) ∧
      (∀ call ∈ now.calls .preempt, ∃ a id, call = .mark a id) ∧
      ∀ before a id later, now.calls .preempt = before ++ .mark a id :: later →
        let unmarked := (now.world.after before).unmarked a
        id ∈ unmarked ∧ ∃ n, nameAt a n ∈ unmarked ∧ (∀ m, nameAt a m ∈ unmarked → m ≤ n) ∧
          (id = nameAt a n ↔ ∀ m, nameAt a m ∈ unmarked → m ≤ n / 10 ^ (width n - width m)) := by
  obtain ⟨sim, built, _, steady, _⟩ := build_steady valid
  refine ⟨sim, built, fun run next => ?_⟩
  intro now drawn
  have tidy : now.world.Tidy := steady.tidy.after run
  refine ⟨(plays_act tidy .preempt).world, calls_preempt tidy.toFiled, ?_⟩
  intro before a id later split unmarked
  obtain ⟨rest, last, live⟩ := markCalls_last tidy.toFiled split
  have member : id ∈ unmarked := by simp [unmarked, last]
  have named : ∀ other ∈ unmarked, ∃ m, other = nameAt a m := by
    intro other there
    refine drawn a other ?_
    rw [World.running?_roster, ← live a]
    exact (World.mem_unmarked.mp there).1
  obtain ⟨n, there, highest⟩ := highest_exists named (List.ne_nil_of_mem member)
  exact ⟨member, n, there, highest, last_is_highest_iff (named id member) member
    (World.unmarked_last last) there highest⟩

/-- Two containers whose names have seven digits each: the one that was drawn last is marked. -/
theorem marks_highest_iff_leads_sample :
    let c : Cluster := {
      nodes := [{ id := ⟨"n1"⟩, memoryMb := 4096, vcores := 2 }]
      queues := [{ name := ⟨"q"⟩ }]
      attempts := [
        { id := ⟨"a"⟩, user := "u", queue := ⟨"q"⟩
          requests := [⟨⟨1⟩, anyPlace, ⟨2048, 1⟩, 2, true, ""⟩] },
        { id := ⟨"b"⟩, user := "u", queue := ⟨"q"⟩
          requests := [⟨⟨1⟩, anyPlace, ⟨2048, 1⟩, 1, true, ""⟩] }] }
    let named : Nat → Container := fun n =>
      ⟨nameAt ⟨"a"⟩ n, ⟨"n1"⟩, ⟨2048, 1⟩, ⟨1⟩, false, none⟩
    let run : List Call := [.allocate ⟨"a"⟩ .offSwitch ⟨"n1"⟩ ⟨1⟩ (named 1000000),
      .allocate ⟨"a"⟩ .offSwitch ⟨"n1"⟩ ⟨1⟩ (named 1234567)]
    c.validate = .ok () ∧ ∃ sim, build c = .ok sim ∧
      let now : Simulation := { sim with world := sim.world.after run, nextContainer := 1234568 }
      now.world.Drawn ∧ now.calls .preempt = [.mark ⟨"a"⟩ (nameAt ⟨"a"⟩ 1234567)] := by
  intro c named run
  have valid : c.validate = .ok () := by decide
  obtain ⟨sim, built, holds⟩ := marks_highest_iff_leads valid
  have seen : (build c).toOption.map (fun sim =>
      let now : Simulation := { sim with world := sim.world.after run, nextContainer := 1234568 }
      (now.world.drawnAt [1000000, 1234567], (now.calls .preempt).map Call.actor,
        now.world.unmarked ⟨"a"⟩)) =
      some (true, [some ⟨"a"⟩], [nameAt ⟨"a"⟩ 1000000, nameAt ⟨"a"⟩ 1234567]) := by
    decide +kernel
  rw [built] at seen
  simp only [Except.toOption, Option.map_some, Option.some.injEq, Prod.mk.injEq] at seen
  obtain ⟨check, actors, unmarked⟩ := seen
  have drawn := World.drawn_of_drawnAt check
  obtain ⟨_, marks, highest⟩ := holds run 1234568 drawn
  refine ⟨valid, sim, built, drawn, ?_⟩
  obtain ⟨call, one, own⟩ := List.map_eq_singleton_iff.mp actors
  obtain ⟨a, id, rfl⟩ := marks call (by rw [one]; exact List.mem_singleton_self _)
  obtain rfl := Option.some.inj own
  obtain ⟨_, n, there, most, iff⟩ := highest [] _ id [] one
  simp only [World.after_nil, unmarked, List.mem_cons, List.not_mem_nil, or_false] at there most iff
  obtain rfl : n = 1234567 := by
    have least := most 1234567 (.inr rfl)
    rcases there with same | same <;> have number := nameAt_number same <;> omega
  rw [one, iff.mpr]
  rintro m (same | same) <;> rw [nameAt_number same] <;> decide +kernel

/-- The name of the millionth container has a digit more than the one before it and comes first, so
    the older of the two is marked. -/
theorem older_marked_first :
    let c : Cluster := {
      nodes := [{ id := ⟨"n1"⟩, memoryMb := 4096, vcores := 2 }]
      queues := [{ name := ⟨"q"⟩ }]
      attempts := [
        { id := ⟨"a"⟩, user := "u", queue := ⟨"q"⟩
          requests := [⟨⟨1⟩, anyPlace, ⟨2048, 1⟩, 2, true, ""⟩] },
        { id := ⟨"b"⟩, user := "u", queue := ⟨"q"⟩
          requests := [⟨⟨1⟩, anyPlace, ⟨2048, 1⟩, 1, true, ""⟩] }] }
    let named : Nat → Container := fun n =>
      ⟨nameAt ⟨"a"⟩ n, ⟨"n1"⟩, ⟨2048, 1⟩, ⟨1⟩, false, none⟩
    let run : List Call := [.allocate ⟨"a"⟩ .offSwitch ⟨"n1"⟩ ⟨1⟩ (named 999999),
      .allocate ⟨"a"⟩ .offSwitch ⟨"n1"⟩ ⟨1⟩ (named 1000000)]
    c.validate = .ok () ∧ ∃ sim, build c = .ok sim ∧
      let now : Simulation := { sim with world := sim.world.after run, nextContainer := 1000001 }
      now.world.Drawn ∧
        ((now.act .preempt).world.roster ⟨"a"⟩).marks.ids = [nameAt ⟨"a"⟩ 999999] ∧
        ¬ ∀ before a id later, now.calls .preempt = before ++ .mark a id :: later →
          ∃ n, id = nameAt a n ∧ ∀ m, nameAt a m ∈ (now.world.after before).unmarked a → m ≤ n := by
  intro c named run
  have valid : c.validate = .ok () := by decide
  obtain ⟨sim, built, _, steady, _⟩ := build_steady valid
  have seen : (build c).toOption.map (fun sim =>
      let now : Simulation := { sim with world := sim.world.after run, nextContainer := 1000001 }
      (now.world.drawnAt [999999, 1000000], (now.calls .preempt).map Call.actor,
        now.world.unmarked ⟨"a"⟩, ((now.act .preempt).world.roster ⟨"a"⟩).marks.ids)) =
      some (true, [some ⟨"a"⟩], [nameAt ⟨"a"⟩ 1000000, nameAt ⟨"a"⟩ 999999],
        [nameAt ⟨"a"⟩ 999999]) := by
    decide +kernel
  rw [built] at seen
  simp only [Except.toOption, Option.map_some, Option.some.injEq, Prod.mk.injEq] at seen
  obtain ⟨check, actors, unmarked, marked⟩ := seen
  refine ⟨valid, sim, built, World.drawn_of_drawnAt check, marked, fun highest => ?_⟩
  obtain ⟨call, one, own⟩ := List.map_eq_singleton_iff.mp actors
  have filed := (steady.tidy.after run).toFiled
  obtain ⟨a, id, rfl⟩ := calls_preempt filed call (by rw [one]; exact List.mem_singleton_self _)
  obtain rfl := Option.some.inj own
  obtain ⟨n, rfl, most⟩ := highest [] _ id [] one
  obtain ⟨rest, last, _⟩ := markCalls_last filed (show _ = [] ++ Call.mark _ _ :: [] from one)
  rw [World.after_nil, unmarked] at last most
  have newer := most 1000000 List.mem_cons_self
  have ends := congrArg List.getLast? last
  rw [List.getLast?_concat, List.getLast?_cons_cons, List.getLast?_singleton] at ends
  have number := nameAt_number (Option.some.inj ends)
  omega

end Simulation
end ClusterLedger
