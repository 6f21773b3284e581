import ClusterLedger.Proofs.Orderly
/- Snapshots against what happened: which containers the snapshots of a run hand out, in order, and
   which marks each of them carries. -/
namespace ClusterLedger

namespace Deed

/-- A container called `id` that runs before these deeds runs until their first snapshot. -/
def reached (id : ContainerId) : List Deed → Bool
  | [] => false
  | .delivers :: _ => true
  | .ends ended :: rest => ended != id && reached id rest
  | .begins _ :: rest | .marks _ :: rest | .reserves .. :: rest | .frees _ :: rest => reached id rest

/-- The containers that begin and are not ended before a snapshot follows, as they began. -/
def delivered : List Deed → List Container
  | [] => []
  | .begins c :: rest => if reached c.id rest then c :: delivered rest else delivered rest
  | .ends _ :: rest | .marks _ :: rest | .reserves .. :: rest | .frees _ :: rest
  | .delivers :: rest => delivered rest

theorem reached_iff (id : ContainerId) (deeds : List Deed) : reached id deeds = true ↔
    ∃ before later, deeds = before ++ .delivers :: later ∧ .delivers ∉ before ∧
      .ends id ∉ before := by
  induction deeds with
  | nil => simp [reached]
  | cons d rest ih =>
    have later : d ≠ .delivers → (reached id (d :: rest) = true ↔
        d ≠ .ends id ∧ reached id rest = true) := by
      intro other
      cases d <;> simp_all [reached]
    constructor
    · intro there
      by_cases here : d = .delivers
      · exact ⟨[], rest, by rw [here]; rfl, by simp, by simp⟩
      · obtain ⟨kept, there⟩ := (later here).mp there
        obtain ⟨before, after, rfl, none, others⟩ := ih.mp there
        refine ⟨d :: before, after, rfl, ?_, ?_⟩
        · simpa [none] using Ne.symm here
        · simpa [others] using Ne.symm kept
    · rintro ⟨before, after, split, none, others⟩
      cases before with
      | nil =>
        rw [(List.cons.inj split).1]
        rfl
      | cons first before =>
        obtain ⟨rfl, tail⟩ := List.cons.inj split
        simp only [List.mem_cons, not_or] at none others
        exact (later (Ne.symm none.1)).mpr ⟨Ne.symm others.1, ih.mpr ⟨before, after, tail, none.2,
          others.2⟩⟩

/-- A mark on `id` was set that no snapshot has carried yet, on a container that has not ended. -/
def Wanted (id : ContainerId) (deeds : List Deed) : Prop :=
  ∃ earlier since, deeds = earlier ++ .marks id :: since ∧ .delivers ∉ since ∧ .ends id ∉ since

theorem wanted_snoc (id : ContainerId) (deeds : List Deed) (d : Deed) :
    Wanted id (deeds ++ [d]) ↔
      d = .marks id ∨ (Wanted id deeds ∧ d ≠ .delivers ∧ d ≠ .ends id) := by
  constructor
  · rintro ⟨earlier, since, split, carried, ended⟩
    rcases List.eq_nil_or_concat since with rfl | ⟨since, last, rfl⟩
    · exact .inl (by simpa using (List.append_inj' split rfl).2)
    · have whole : deeds ++ [d] = (earlier ++ .marks id :: since) ++ [last] := by simpa using split
      obtain ⟨rfl, same⟩ := List.append_inj' whole rfl
      obtain rfl := List.singleton_inj.mp same
      simp only [List.concat_eq_append, List.mem_append, List.mem_singleton, not_or] at carried ended
      exact .inr ⟨⟨earlier, since, rfl, carried.1, ended.1⟩, Ne.symm carried.2, Ne.symm ended.2⟩
  · rintro (rfl | ⟨⟨earlier, since, rfl, carried, ended⟩, other, apart⟩)
    · exact ⟨deeds, [], rfl, by simp, by simp⟩
    · refine ⟨earlier, since ++ [d], by simp, ?_, ?_⟩ <;> simp_all [eq_comm]

end Deed

namespace World
variable {w : World} {a : AttemptId}

def handed (w : World) (a : AttemptId) : Event → Option Snapshot
  | .call (.snapshot x cluster) => if x = a then some (w.snapshot x cluster).1 else none
  | _ => none

def snapshots (w : World) (a : AttemptId) : List Event → List Snapshot
  | [] => []
  | e :: events => (w.handed a e).toList ++ (w.undergo e).snapshots a events

/-- The containers that wait and are still to be handed out, if `deeds` are what follows. -/
def owed (w : World) (a : AttemptId) (deeds : List Deed) : List Container :=
  ((w.roster a).undelivered.map w.container).filter fun c => Deed.reached c.id deeds

theorem snapshot_containers (cluster : Resource) :
    (w.snapshot a cluster).1.containers = (w.roster a).undelivered.map w.container := by
  cases found : w.attempts.get? a with
  | none => simp [snapshot, roster, found]
  | some s =>
    rw [roster_of_found found]
    simp only [snapshot, found]
    rfl

theorem handed_containers (e : Event) : (w.handed a e).toList.flatMap (·.containers) =
    if w.deed a e = some .delivers then (w.roster a).undelivered.map w.container else [] := by
  cases e with
  | refit nodes => rfl
  | call c =>
    cases c with
    | snapshot x cluster =>
      simp only [handed, deed, deedOf]
      by_cases own : x = a
      · subst own
        simp [snapshot_containers]
      · simp [own]
    | reserve x priority n existing c =>
      simp only [handed, deed, deedOf]
      split
      · split <;> rfl
      · rfl
    | move x r source target =>
      simp only [handed, deed, deedOf]
      split <;> simp
    | _ =>
      simp only [handed, deed, deedOf]
      try split
      all_goals rfl

theorem owed_of_lists {w' : World} (orderly : w.Orderly (w.roster a)) (follows : Follows w w')
    (same : (w'.roster a).undelivered = (w.roster a).undelivered) (deeds : List Deed) :
    w'.owed a deeds = w.owed a deeds := by
  unfold owed
  rw [same, List.map_congr_left fun r member =>
    (follows.records r (orderly.waits_known member)).2]

theorem owed_step (filed : w.Filed) (orderly : w.Orderly (w.roster a)) (e : Event)
    (deeds : List Deed) :
    (w.handed a e).toList.flatMap (·.containers) ++
      ((w.undergo e).owed a deeds ++ Deed.delivered deeds) =
    w.owed a ((w.deed a e).toList ++ deeds) ++ Deed.delivered ((w.deed a e).toList ++ deeds) := by
  rw [handed_containers]
  obtain ⟨follows, course⟩ := passage filed e
  have course := course a
  generalize w.undergo e = w' at *
  generalize w.deed a e = d at *
  -- What waits is known, so its containers read the same after the event.
  have waiting : (w.roster a).undelivered.map w'.container =
      (w.roster a).undelivered.map w.container :=
    List.map_congr_left fun r member => (follows.records r (orderly.waits_known member)).2
  cases course with
  | @begins c r fresh known container idFree unreserved roster =>
    simp only [owed, roster, Roster.begin, List.map_append, waiting, container, List.map_cons,
      List.map_nil, List.filter_append, Option.toList_some, List.cons_append, List.nil_append,
      Deed.delivered, Deed.reached]
    by_cases reached : Deed.reached c.id deeds <;> simp [reached]
  | @ends id live roster =>
    have left : ((w.roster a).undelivered.filter fun r => (w.container r).id != id).map w'.container =
        ((w.roster a).undelivered.map w.container).filter fun c => c.id != id := by
      rw [List.filter_map]
      exact List.map_congr_left fun r member =>
        (follows.records r (orderly.waits_known (List.mem_of_mem_filter member))).2
    simp only [owed, roster, Roster.drop, left, List.filter_filter, Option.toList_some,
      List.cons_append, List.nil_append, Deed.delivered, Deed.reached, reduceCtorEq, ↓reduceIte,
      Option.some.injEq]
    congr 2
    funext c
    rw [Bool.and_comm, bne_comm]
  | marks live roster =>
    rw [owed_of_lists orderly follows (by rw [roster]; rfl)]
    rfl
  | delivers roster =>
    simp only [owed, roster]
    simp [Roster.deliver, Deed.delivered, Deed.reached]
  | @reserves b r gone roster origin =>
    have left := (w.roster a).giveUp_within gone
    rw [owed_of_lists orderly follows (by rw [roster]; exact left.undelivered)]
    rfl
  | frees roster =>
    rw [owed_of_lists orderly follows (by rw [roster]; rfl)]
    rfl
  | stays roster =>
    rw [owed_of_lists orderly follows (by rw [roster])]
    rfl

theorem snapshots_deliver (filed : w.Filed) (orderly : w.Orderly (w.roster a))
    (events : List Event) : (w.snapshots a events).flatMap (·.containers) =
      w.owed a (w.history a events) ++ Deed.delivered (w.history a events) := by
  induction events generalizing w with
  | nil => simp [snapshots, history, owed, Deed.reached, Deed.delivered]
  | cons e events ih =>
    have later := ih (filed.follows (passage filed e).follows) (orderly_undergo filed orderly e)
    rw [snapshots, List.flatMap_append, later, owed_step filed orderly e]
    rfl

theorem history_snoc (w : World) (a : AttemptId) (events : List Event) (e : Event) :
    w.history a (events ++ [e]) =
      w.history a events ++ ((w.through events).deed a e).toList := by
  induction events generalizing w with
  | nil => simp [history, through]
  | cons first events ih =>
    simp only [List.cons_append, history, ih, List.append_assoc]
    rfl

theorem marks_course {w' : World} {d : Option Deed} (course : Course w w' a d) (id : ContainerId) :
    (w'.roster a).marks.has id = true ↔ d = some (.marks id) ∨
      ((w.roster a).marks.has id = true ∧ d ≠ some .delivers ∧ d ≠ some (.ends id)) := by
  cases course with
  | begins fresh known container idFree unreserved roster => simp [roster, Roster.begin]
  | @ends ended live roster =>
    simp only [roster, Roster.drop, Marks.has_unmark]
    by_cases same : id = ended
    · simp [same]
    · simp [same, Ne.symm same]
  | @marks marked live roster =>
    simp only [roster, Roster.mark, Marks.has_mark]
    by_cases same : id = marked
    · simp [same]
    · simp [same, Ne.symm same]
  | delivers roster => simp [roster, Roster.deliver, Marks.has, Table.contains]
  | @reserves b r gone roster origin =>
    have left := (w.roster a).giveUp_within gone
    simp [roster, Roster.reserve, left.marks]
  | frees roster => simp [roster, Roster.unreserve]
  | stays roster => simp [roster]

theorem marks_wanted (opening : w.Opening) (events : List Event) (id : ContainerId) :
    ((w.through events).roster a).marks.has id = true ↔ Deed.Wanted id (w.history a events) := by
  -- A mark looks back to the call that set it, so the run grows at its end.
  induction events using List.reverseRecOn with
  | nil =>
    have blank : (w.roster a).marks.has id = false := by
      rw [opening.roster_blank]
      rfl
    simp [through, history, blank, Deed.Wanted]
  | append_singleton events e ih =>
    have filed : (w.through events).Filed := opening.filed.through
    have course := marks_course ((passage filed e).course a) id
    rw [history_snoc, through, List.foldl_append]
    refine course.trans ?_
    rw [ih]
    cases deed : (w.through events).deed a e with
    | none => simp
    | some d =>
      rw [Option.toList_some, Deed.wanted_snoc]
      simp

theorem map_of_isSome {α β : Type*} {f : α → Option β} {l : List α}
    (all : ∀ x ∈ l, (f x).isSome) : l.map f = (l.filterMap f).map some := by
  induction l with
  | nil => rfl
  | cons x l ih =>
    obtain ⟨y, found⟩ := Option.isSome_iff_exists.mp (all x (by simp))
    have rest := ih fun x' member => all x' (by simp [member])
    simp [found, rest]

/-- Each container that lasts until a snapshot is handed out once and in order, no other is, and
    each mark is carried by the first snapshot after it that finds its container running. -/
theorem handed_out_once {start : World} (opening : start.Opening) (a : AttemptId) :
    (∀ events, (start.snapshots a events).flatMap (·.containers) =
      Deed.delivered (start.history a events)) ∧
    ∀ (past : List Event) (cluster : Resource) (s : Attempt),
      (start.through past).attempts.get? a = some s →
      let w := start.through past
      let snapshot := (w.snapshot a cluster).1
      (∀ id, id ∈ snapshot.preempted.ids ↔ Deed.Wanted id (start.history a past)) ∧
      snapshot.preempted.ids.Nodup ∧
      ∃ records : List RecordId, snapshot.preempted.ids.map (w.running? a) = records.map some ∧
        snapshot.releaseRequests = [{
          priority := .undefined
          place := anyPlace
          capability := s.minimumAllocation
          count := wholeCount (s.calculator.divide cluster
            (.sum (records.map fun r => (w.record r).resource)) s.minimumAllocation) }] := by
  constructor
  · intro events
    have nothing : start.owed a (start.history a events) = [] := by
      cases found : start.attempts.get? a with
      | none => simp [owed, roster, found]
      | some s =>
        simp [owed, roster_of_found found, Attempt.roster, (opening.attempts found).2.1.undelivered]
    rw [snapshots_deliver opening.filed (opening.orderly a), nothing, List.nil_append]
  · intro past cluster s found
    have orderly := opening.orderly_through past a
    have wanted := marks_wanted opening past (a := a)
    rw [roster_of_found found] at orderly wanted
    simp only [snapshot, found]
    refine ⟨fun id => Table.mem_keys.trans (wanted id), s.marks.table.keys_nodup, _, ?_, rfl⟩
    have running : (start.through past).running? a = s.live.get? := by
      funext id
      simp [running?, found]
    rw [running]
    exact map_of_isSome fun id member => orderly.marked id (Table.mem_keys.mp member)

/-- A name is used again before the first snapshot, and its second container is wanted back: three
    times the minimum cover it. -/
theorem handed_out_once_sample :
    let first : Container := ⟨⟨"c1"⟩, ⟨"n1"⟩, ⟨512, 1⟩, ⟨1⟩, false, none⟩
    let again : Container := ⟨⟨"c1"⟩, ⟨"n2"⟩, ⟨2500, 1⟩, ⟨1⟩, false, none⟩
    let events : List Event := [
      .call (.request ⟨"a"⟩ [⟨⟨1⟩, anyPlace, ⟨512, 1⟩, 3, true, ""⟩]),
      .call (.allocate ⟨"a"⟩ .offSwitch ⟨"n1"⟩ ⟨1⟩ first),
      .call (.mark ⟨"a"⟩ ⟨"c1"⟩),
      .call (.complete ⟨"a"⟩ ⟨"c1"⟩ ⟨0, ""⟩ .finished ""),
      .call (.allocate ⟨"a"⟩ .offSwitch ⟨"n2"⟩ ⟨1⟩ again),
      .call (.snapshot ⟨"a"⟩ ⟨8192, 8⟩),
      .call (.mark ⟨"a"⟩ ⟨"c1"⟩)]
    let last := ((sample.through events).snapshot ⟨"a"⟩ ⟨8192, 8⟩).1
    (sample.snapshots ⟨"a"⟩ events).flatMap (·.containers) = [again] ∧
      ⟨"c1"⟩ ∈ last.preempted.ids ∧
      last.releaseRequests = [⟨.undefined, anyPlace, ⟨1024, 1⟩, 3, true, ""⟩] := by
  intro first again events last
  obtain ⟨handed, carried⟩ := handed_out_once sample_opening ⟨"a"⟩
  have story : sample.history ⟨"a"⟩ events = [.begins first, .marks ⟨"c1"⟩, .ends ⟨"c1"⟩,
      .begins again, .delivers, .marks ⟨"c1"⟩] := by decide
  refine ⟨?_, ?_, by decide +kernel⟩
  · rw [handed, story]
    rfl
  · obtain ⟨s, found⟩ := Option.isSome_iff_exists.mp
      (show ((sample.through events).attempts.get? ⟨"a"⟩).isSome = true by decide)
    rw [(carried events _ s found).1, story]
    exact ⟨[.begins first, .marks ⟨"c1"⟩, .ends ⟨"c1"⟩, .begins again, .delivers], [], rfl,
      by simp, by simp⟩

end World
end ClusterLedger
