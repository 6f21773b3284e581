import ClusterLedger.Proofs.Memo
/- How often an attempt made reservations again, against what it holds. A count ends when its attempt
   gives a reservation up, but not when the last one loses its node to another priority. -/
namespace ClusterLedger

namespace Deed

def freed : Deed → Option Priority
  | .frees b => some b.priority
  | _ => none

def outranked : Deed → Option Berth
  | .reserves b _ gone => gone.filter (·.priority ≠ b.priority)
  | _ => none

end Deed

namespace World

def recount (w : World) (a : AttemptId) (p : Priority) : Nat :=
  ((w.attempts.get? a).map (·.reReserved p)).getD 0

def reservedAt (w : World) (a : AttemptId) (p : Priority) : List (NodeId × RecordId) :=
  ((w.attempts.get? a).map (·.reservationsAt p)).getD []

def remakes (w : World) (a : AttemptId) (p : Priority) : Event → Nat
  | .call (.reserve x q n existing c) => if x = a ∧ q = p ∧ w.Again x q n existing c then 1 else 0
  | _ => 0

def repeats (w : World) (a : AttemptId) (p : Priority) : List Event → Nat
  | [] => 0
  | e :: events => w.remakes a p e + (w.undergo e).repeats a p events

/-- The last reservation at a priority where some were made again goes for one at another. -/
def DropsCounted (w : World) (a : AttemptId) (e : Event) : Prop :=
  ∃ b ∈ (w.deed a e).bind Deed.outranked,
    (∀ held ∈ w.reservedAt a b.priority, held.1 = b.node) ∧ 0 < w.recount a b.priority

instance (w : World) (a : AttemptId) (e : Event) : Decidable (w.DropsCounted a e) :=
  inferInstanceAs (Decidable (∃ b ∈ (w.deed a e).bind Deed.outranked, _ ∧ _))

def Recounted (w : World) (a : AttemptId) : Prop :=
  ∀ p, 0 < w.recount a p → w.reservedAt a p ≠ []

variable {w : World} {a : AttemptId} {p : Priority}

theorem mem_reservedAt {n : NodeId} {r : RecordId} :
    (n, r) ∈ w.reservedAt a p ↔ (w.roster a).reservations.get? ⟨p, n⟩ = some r := by
  cases found : w.attempts.get? a with
  | none => simp [reservedAt, roster, found]
  | some s =>
    rw [roster_of_found found]
    simp only [reservedAt, found, Option.map_some, Option.getD_some]
    exact Attempt.mem_reservationsAt

theorem reservedAt_ne_nil :
    w.reservedAt a p ≠ [] ↔ ∃ n r, (w.roster a).reservations.get? ⟨p, n⟩ = some r := by
  simp only [ne_eq, List.eq_nil_iff_forall_not_mem, not_forall, not_not, Prod.exists,
    mem_reservedAt]

theorem recount_memo : w.recount a p =
    ((w.memo? a).map fun m => (m.reReservations.get? p).getD 0).getD 0 := by
  rw [recount, memo?, Option.map_map]
  rfl

theorem Again.known {x : AttemptId} {n : NodeId} {existing : Option RecordId} {c : Container}
    (again : w.Again x p n existing c) : ∃ s, w.attempts.get? x = some s := by
  obtain ⟨some, there, _⟩ := again
  rw [← there] at some
  obtain ⟨r, at_⟩ := Option.isSome_iff_exists.mp some
  obtain ⟨s, found, _⟩ := Option.bind_eq_some_iff.mp at_
  exact ⟨s, found⟩

theorem freed_deedOf (w : World) (a : AttemptId) (c : Call) : (w.deedOf a c).bind Deed.freed =
    match c with
    | .unreserve x q n => if x = a ∧ (w.unreserve x q n).1 then some q else none
    | _ => none := by
  have guarded : ∀ {P : Prop} [Decidable P] (d : Deed), d.freed = none →
      (if P then some d else none).bind Deed.freed = none := by
    intro P _ d unfreed
    split
    · exact unfreed
    · rfl
  cases c with
  | allocate | complete | mark | snapshot => exact guarded _ rfl
  | reserve x q n existing c =>
    simp only [deedOf]
    split
    · split <;> rfl
    · rfl
  | unreserve x q n =>
    simp only [deedOf]
    split <;> rfl
  | move x r source target =>
    simp only [deedOf]
    split
    · cases (w.record r).reservedPriority <;> rfl
    · rfl
  | _ => rfl

theorem note_reReservations (m : Memo) (c : Call) : (w.note a m c).reReservations =
    match c with
    | .reserve x q n existing c =>
      if (w.attempts.get? x).map (·.id) = some a ∧ w.Again x q n existing c then
        (m.countAgain q).reReservations
      else m.reReservations
    | .unreserve x q n =>
      if x = a ∧ (w.unreserve x q n).1 then m.reReservations.erase q else m.reReservations
    | _ => m.reReservations := by
  cases c with
  | allocate x locality n q c =>
    simp only [note, Memo.serve]
    split
    · split
      · split <;> rfl
      · rfl
    · rfl
  | processNode x n =>
    simp only [note, Memo.process]
    split
    · split
      · split <;> rfl
      · rfl
    · rfl
  | complete | reserve | unreserve | snapshot | request | stop | skipNode =>
    simp only [note]
    split <;> rfl
  | _ => rfl

theorem recount_undergo (filed : w.Filed) (a : AttemptId) (p : Priority) (e : Event) :
    (w.undergo e).recount a p = if (w.deed a e).bind Deed.freed = some p then 0
      else w.recount a p + w.remakes a p e := by
  cases e with
  | refit nodes => rfl
  | call c =>
    simp only [undergo, deed, recount_memo, memo_note, Option.map_map, Function.comp_def,
      note_reReservations, freed_deedOf]
    cases c with
    | reserve x q n existing c =>
      simp only [remakes, reduceCtorEq, ↓reduceIte]
      by_cases again : x = a ∧ w.Again x q n existing c
      · obtain ⟨rfl, made⟩ := again
        obtain ⟨s, found⟩ := made.known
        simp only [memo?, found, filed.attempts x s found, made, Option.map_some, Option.getD_some,
          and_self, and_true, true_and, ↓reduceIte, Memo.countAgain, Table.lookup_insert]
        by_cases same : p = q
        · simp [same]
        · simp [same, Ne.symm same]
      · have idle : ¬ ((w.attempts.get? x).map (·.id) = some a ∧ w.Again x q n existing c) := by
          rintro ⟨named, made⟩
          obtain ⟨s, found⟩ := made.known
          rw [found, Option.map_some, filed.attempts x s found] at named
          exact again ⟨Option.some.inj named, made⟩
        have other : ¬ (x = a ∧ q = p ∧ w.Again x q n existing c) :=
          fun both => again ⟨both.1, both.2.2⟩
        simp only [if_neg idle, if_neg other, Nat.add_zero]
    | unreserve x q n =>
      by_cases gives : x = a ∧ (w.unreserve x q n).1
      · simp only [if_pos gives, Option.some.injEq, Table.lookup_erase, remakes, Nat.add_zero]
        by_cases same : p = q
        · cases w.memo? a <;> simp [same]
        · simp [same, Ne.symm same]
      · simp [if_neg gives, remakes]
    | _ => rfl

theorem remakes_eq_zero {e : Event}
    (elsewhere : ∀ b r gone, w.deed a e = some (.reserves b r gone) → b.priority ≠ p) :
    w.remakes a p e = 0 := by
  unfold remakes
  split
  · rename_i x q n existing c
    refine if_neg ?_
    rintro ⟨rfl, rfl, again⟩
    obtain ⟨⟨r, w'⟩, answer⟩ : ∃ result, w.reserve x q n existing c = .ok result := by
      have granted := again.2.2
      cases outcome : w.reserve x q n existing c with
      | error e => simp [outcome, Except.toOption] at granted
      | ok result => exact ⟨result, rfl⟩
    exact elsewhere ⟨q, n⟩ r _ (by simp only [deed, deedOf, answer, ↓reduceIte]; rfl) rfl
  · rfl

/-- A reservation at another priority may leave a count alone: the berth it takes was the last. -/
theorem recounted_reserves {w' : World} {b : Berth} {r : RecordId} {gone : Option Berth}
    (recounted : w.Recounted a) (roster : w'.roster a = ((w.roster a).giveUp gone).reserve b r)
    (counts : ∀ p, p ≠ b.priority → w'.recount a p = w.recount a p) : w'.Recounted a ↔
      ¬ ∃ g ∈ gone.filter (·.priority ≠ b.priority),
        (∀ held ∈ w.reservedAt a g.priority, held.1 = g.node) ∧ 0 < w.recount a g.priority := by
  have stands : ∀ c, c.priority ≠ b.priority → (w'.roster a).reservations.get? c =
      if gone = some c then none else (w.roster a).reservations.get? c := by
    intro c other
    have apart : c ≠ b := fun same => other (congrArg Berth.priority same)
    rw [roster, Roster.reserve, Table.lookup_insert, if_neg apart]
    cases gone with
    | none => simp [Roster.giveUp]
    | some g => simp only [Roster.giveUp, Roster.unreserve, Table.lookup_erase, Option.some.injEq,
        eq_comm]
  simp only [Option.mem_def, Option.filter_eq_some_iff, decide_eq_true_eq]
  constructor
  · rintro kept ⟨g, ⟨rfl, other⟩, last, counted⟩
    obtain ⟨n, x, there⟩ := reservedAt_ne_nil.mp (kept g.priority (by rwa [counts _ other]))
    rw [stands ⟨g.priority, n⟩ other] at there
    split at there
    · simp at there
    · rename_i left
      have here : n = g.node := last (n, x) (mem_reservedAt.mpr there)
      exact left (by rw [here])
  · intro untouched p counted
    by_cases same : p = b.priority
    · subst same
      refine reservedAt_ne_nil.mpr ⟨b.node, r, ?_⟩
      rw [roster, Roster.reserve, Table.lookup_insert, if_pos rfl]
    · rw [counts p same] at counted
      intro lost
      -- Whatever was held at the priority is gone, so one berth was all of it.
      have gave : ∀ held ∈ w.reservedAt a p, gone = some ⟨p, held.1⟩ := by
        rintro ⟨n, x⟩ held
        by_contra other
        refine absurd lost (reservedAt_ne_nil.mpr ⟨n, x, ?_⟩)
        rw [stands ⟨p, n⟩ same, if_neg other]
        exact mem_reservedAt.mp held
      obtain ⟨first, held⟩ := List.exists_mem_of_ne_nil _ (recounted p counted)
      refine untouched ⟨⟨p, first.1⟩, ⟨gave first held, same⟩, fun other member => ?_, counted⟩
      have both := (gave other member).symm.trans (gave first held)
      exact congrArg Berth.node (Option.some.inj both)

theorem recounted_frees {w' : World} {b : Berth} (recounted : w.Recounted a)
    (roster : w'.roster a = (w.roster a).unreserve b)
    (counts : ∀ p, w'.recount a p = if b.priority = p then 0 else w.recount a p) :
    w'.Recounted a := by
  intro p counted
  rw [counts] at counted
  split at counted
  · simp at counted
  · rename_i other
    obtain ⟨n, r, there⟩ := reservedAt_ne_nil.mp (recounted p counted)
    have apart : (⟨p, n⟩ : Berth) ≠ b := fun same => other (congrArg Berth.priority same).symm
    refine reservedAt_ne_nil.mpr ⟨n, r, ?_⟩
    rw [roster, Roster.unreserve, Table.lookup_erase, if_neg apart]
    exact there

theorem recounted_kept {w' : World} (recounted : w.Recounted a)
    (same : (w'.roster a).reservations = (w.roster a).reservations)
    (counts : ∀ p, w'.recount a p = w.recount a p) : w'.Recounted a := by
  intro p counted
  rw [reservedAt_ne_nil, same, ← reservedAt_ne_nil]
  exact recounted p (by rwa [← counts p])

theorem recounted_undergo (filed : w.Filed) (recounted : w.Recounted a) (e : Event) :
    (w.undergo e).Recounted a ↔ ¬ w.DropsCounted a e := by
  have course := (passage filed e).course a
  have counts := fun p => recount_undergo filed a p e
  have silent := fun p => remakes_eq_zero (w := w) (a := a) (p := p) (e := e)
  unfold DropsCounted
  generalize w.undergo e = w' at *
  generalize w.deed a e = d at *
  cases course with
  | frees roster =>
    refine iff_of_true (recounted_frees recounted roster fun p => ?_) (by simp [Deed.outranked])
    rw [counts, silent p (by simp)]
    simp [Deed.freed]
  | reserves roster origin =>
    refine recounted_reserves recounted roster fun p other => ?_
    rw [counts, silent p (by simpa using Ne.symm other)]
    simp [Deed.freed]
  | begins _ _ _ _ _ roster | ends _ roster | marks _ roster | delivers roster | stays roster =>
    have same : (w'.roster a).reservations = (w.roster a).reservations := by
      simp [roster, Roster.begin, Roster.drop, Roster.mark, Roster.deliver]
    refine iff_of_true (recounted_kept recounted same fun p => ?_) (by simp [Deed.outranked])
    rw [counts, silent p (by simp)]
    simp [Deed.freed]

structure CountsHeld (start : World) (a : AttemptId) (past : List Event) : Prop where
  held : (start.through past).Recounted a
  /-- What is counted was made again since the attempt last held nothing at the priority. -/
  since : ∀ p earlier later, past = earlier ++ later → (start.through earlier).reservedAt a p = [] →
    (start.through past).recount a p ≤ (start.through earlier).repeats a p later

theorem recount_through (filed : w.Filed) (events : List Event) :
    (w.through events).recount a p ≤ w.recount a p + w.repeats a p events := by
  induction events generalizing w with
  | nil => exact Nat.le_refl _
  | cons e events ih =>
    have first : (w.undergo e).recount a p ≤ w.recount a p + w.remakes a p e := by
      rw [recount_undergo filed]
      split
      · exact Nat.zero_le _
      · exact Nat.le_refl _
    calc (w.through (e :: events)).recount a p
        ≤ (w.undergo e).recount a p + (w.undergo e).repeats a p events :=
          ih (filed.follows (passage filed e).follows)
      _ ≤ w.recount a p + w.remakes a p e + (w.undergo e).repeats a p events := by omega
      _ = w.recount a p + w.repeats a p (e :: events) := Nat.add_assoc _ _ _

theorem recounted_iff_none_dropped (filed : w.Filed) (recounted : w.Recounted a) (events : List Event) :
    (∀ past, past <+: events → (w.through past).Recounted a) ↔
      w.Throughout (fun w e => ¬ w.DropsCounted a e) events := by
  induction events generalizing w with
  | nil =>
    refine ⟨fun _ => trivial, fun _ past stretch => ?_⟩
    rw [List.prefix_nil.mp stretch]
    exact recounted
  | cons e events ih =>
    have step := recounted_undergo filed recounted e
    have next := fun kept => ih (filed.follows (passage filed e).follows) kept
    constructor
    · intro every
      have kept := every [e] ((List.cons_prefix_cons).mpr ⟨rfl, List.nil_prefix⟩)
      exact ⟨step.mp kept, (next kept).mp fun past stretch =>
        every (e :: past) ((List.cons_prefix_cons).mpr ⟨rfl, stretch⟩)⟩
    · rintro ⟨first, rest⟩ past stretch
      cases past with
      | nil => exact recounted
      | cons e' past =>
        obtain ⟨rfl, shorter⟩ := List.cons_prefix_cons.mp stretch
        exact (next (step.mpr first)).mpr rest past shorter

theorem Opening.recounted (opening : w.Opening) (a : AttemptId) : w.Recounted a := by
  intro p counted
  cases found : w.attempts.get? a with
  | none => simp [recount, found] at counted
  | some s =>
    simp [recount, found, Attempt.reReserved, (opening.attempts found).2.1.reReservations] at counted

/-- In every state of a run, an attempt counts reservations made again only where it holds some, and
    only those since it last held none there, if and only if no reservation of the run takes the
    last berth of another priority that has a count. -/
theorem counts_held_iff_none_dropped {start : World} (opening : start.Opening) (a : AttemptId)
    (events : List Event) : (∀ past, past <+: events → start.CountsHeld a past) ↔
      start.Throughout (fun w e => ¬ w.DropsCounted a e) events := by
  rw [← recounted_iff_none_dropped opening.filed (opening.recounted a) events]
  constructor
  · exact fun follow past stretch => (follow past stretch).held
  · intro kept past stretch
    refine ⟨kept past stretch, ?_⟩
    rintro p earlier later rfl bare
    have none : (start.through earlier).recount a p = 0 := by
      by_contra counted
      exact kept earlier ((List.prefix_append _ _).trans stretch) p (Nat.pos_of_ne_zero counted) bare
    have filed : (start.through earlier).Filed := opening.filed.through
    have bound := recount_through (a := a) (p := p) filed later
    rw [none, Nat.zero_add] at bound
    rwa [through, List.foldl_append]

theorem counts_held_iff_none_dropped_sample :
    let events : List Event := [
      .call (.reserve ⟨"a"⟩ ⟨1⟩ ⟨"n1"⟩ none ⟨⟨"c1"⟩, ⟨"n1"⟩, ⟨512, 1⟩, ⟨1⟩, false, none⟩),
      .call (.reserve ⟨"a"⟩ ⟨1⟩ ⟨"n1"⟩ (some ⟨0⟩) ⟨⟨"c1"⟩, ⟨"n1"⟩, ⟨512, 1⟩, ⟨1⟩, false, none⟩),
      .call (.reserve ⟨"a"⟩ ⟨1⟩ ⟨"n2"⟩ none ⟨⟨"c2"⟩, ⟨"n2"⟩, ⟨512, 1⟩, ⟨1⟩, false, none⟩),
      .call (.reserve ⟨"a"⟩ ⟨2⟩ ⟨"n1"⟩ none ⟨⟨"c3"⟩, ⟨"n1"⟩, ⟨512, 1⟩, ⟨2⟩, false, none⟩)]
    (sample.through events).recount ⟨"a"⟩ ⟨1⟩ = 1 ∧ sample.CountsHeld ⟨"a"⟩ events := by
  intro events
  refine ⟨by decide, (counts_held_iff_none_dropped sample_opening ⟨"a"⟩ events).mpr ?_ events
    (List.prefix_refl _)⟩
  exact ⟨by decide, by decide, by decide, by decide, trivial⟩

/-- The only reservation at a priority loses its node to another priority; its count stays. -/
theorem count_outlives_reservation :
    let events : List Event := [
      .call (.reserve ⟨"a"⟩ ⟨1⟩ ⟨"n1"⟩ none ⟨⟨"c1"⟩, ⟨"n1"⟩, ⟨512, 1⟩, ⟨1⟩, false, none⟩),
      .call (.reserve ⟨"a"⟩ ⟨1⟩ ⟨"n1"⟩ (some ⟨0⟩) ⟨⟨"c1"⟩, ⟨"n1"⟩, ⟨512, 1⟩, ⟨1⟩, false, none⟩),
      .call (.reserve ⟨"a"⟩ ⟨2⟩ ⟨"n1"⟩ none ⟨⟨"c2"⟩, ⟨"n1"⟩, ⟨512, 1⟩, ⟨2⟩, false, none⟩)]
    sample.Opening ∧ (sample.through events).recount ⟨"a"⟩ ⟨1⟩ = 1 ∧
      (sample.through events).reservedAt ⟨"a"⟩ ⟨1⟩ = [] ∧ ¬ sample.CountsHeld ⟨"a"⟩ events := by
  intro events
  have counted : (sample.through events).recount ⟨"a"⟩ ⟨1⟩ = 1 := by decide
  have bare : (sample.through events).reservedAt ⟨"a"⟩ ⟨1⟩ = [] := by decide
  exact ⟨sample_opening, counted, bare, fun follow => follow.held ⟨1⟩ (by omega) bare⟩

end World
end ClusterLedger
