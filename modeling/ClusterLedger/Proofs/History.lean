import ClusterLedger.Proofs.Roster
/- Runs as histories. A call comes to a deed of the attempt whose call it is, told by what the call
   answers, and the deed tells what becomes of the attempt's roster. Callers hand in nodes of their
   own, so nodes may turn into any others between calls, and two may go by one name. -/
namespace ClusterLedger

inductive Event
  | call (c : Call)
  | refit (nodes : List Node)

/-- What a call that succeeds comes to for the lists of its attempt. -/
inductive Deed
  | begins (c : Container)
  | ends (id : ContainerId)
  | marks (id : ContainerId)
  | delivers
  /-- The record of a berth is new there, or is reserved again; `gone` is given up for it. -/
  | reserves (b : Berth) (r : RecordId) (gone : Option Berth)
  | frees (b : Berth)
deriving DecidableEq, Repr

def outdone (slot : Option Slot) (n : NodeId) (r : RecordId) : Option Berth :=
  (slot.filter (·.record ≠ r)).map fun held => ⟨held.priority, n⟩

def Attempt.enroll (s : Attempt) (clock : Nat) (id : ContainerId) (r : RecordId)
    (demand : Demand) : Attempt :=
  { s.accrue clock with
    live := s.live.insert id r, undelivered := s.undelivered ++ [r], demand }

theorem Marks.mark_marked (m : Marks) {id : ContainerId} (marked : m.has id = true) :
    (m.mark id).2 = m := by
  obtain ⟨table⟩ := m
  refine congrArg Marks.mk (Table.eq_of_lookup fun other => ?_)
  rw [Table.lookup_insert]
  split
  · rename_i same
    exact same ▸ (Option.isSome_iff_exists.mp marked).choose_spec.symm
  · rfl

namespace World

def undergo (w : World) : Event → World
  | .call c => w.perform c
  | .refit nodes => { w with nodes := .ofList (nodes.map fun n => (n.id, n)) }

def through (w : World) (events : List Event) : World := events.foldl undergo w

/-- Each event of a run happens where `allowed` lets it happen. -/
def Throughout (allowed : World → Event → Prop) : World → List Event → Prop
  | _, [] => True
  | w, e :: events => allowed w e ∧ Throughout allowed (w.undergo e) events

def deedOf (w : World) (a : AttemptId) : Call → Option Deed
  | .allocate x locality n priority c =>
    if x = a ∧ (w.allocate x locality n priority c).1.isSome then some (.begins c) else none
  | .complete x id report ending partition =>
    if x = a ∧ (w.complete x id report ending partition).1 then some (.ends id) else none
  | .mark x id => if x = a ∧ (w.mark x id).1 then some (.marks id) else none
  | .snapshot x _ => if x = a then some .delivers else none
  | .reserve x priority n existing c =>
    if x = a then
      match w.reserve x priority n existing c with
      | .ok (r, _) => some (.reserves ⟨priority, n⟩ r (outdone (w.slot? n) n r))
      | .error _ => none
    else none
  | .unreserve x priority n =>
    if x = a ∧ (w.unreserve x priority n).1 then some (.frees ⟨priority, n⟩) else none
  | .move x r source target =>
    if x = a ∧ (w.moveReservation x r source target).1 then
      (w.record r).reservedPriority.map fun priority =>
        .reserves ⟨priority, target⟩ r (some ⟨priority, source⟩)
    else none
  | _ => none

def deed (w : World) (a : AttemptId) : Event → Option Deed
  | .call c => w.deedOf a c
  | .refit _ => none

def history (w : World) (a : AttemptId) : List Event → List Deed
  | [] => []
  | e :: events => (w.deed a e).toList ++ (w.undergo e).history a events

/-- What a deed makes of the roster of its attempt. -/
inductive Course (w w' : World) (a : AttemptId) : Option Deed → Prop
  | begins {c r} (fresh : ¬ w.Knows r) (known : w'.Knows r) (container : w'.container r = c)
      (idFree : (w.roster a).live.get? c.id = none)
      (unreserved : ∀ b x, (w.roster a).reservations.get? b = some x → (w.container x).id ≠ c.id)
      (roster : w'.roster a = (w.roster a).begin c.id r) : Course w w' a (some (.begins c))
  | ends {id} (live : ((w.roster a).live.get? id).isSome)
      (roster : w'.roster a = (w.roster a).drop id
        ((w.roster a).undelivered.filter fun r => (w.container r).id != id)) :
      Course w w' a (some (.ends id))
  | marks {id} (live : ((w.roster a).live.get? id).isSome)
      (roster : w'.roster a = (w.roster a).mark id) : Course w w' a (some (.marks id))
  | delivers (roster : w'.roster a = (w.roster a).deliver) : Course w w' a (some .delivers)
  | reserves {b r gone} (roster : w'.roster a = ((w.roster a).giveUp gone).reserve b r)
      (origin : (∃ b', (w.roster a).reservations.get? b' = some r) ∨
        (w'.Knows r ∧ (w.roster a).live.get? (w'.container r).id = none)) :
      Course w w' a (some (.reserves b r gone))
  | frees {b} (roster : w'.roster a = (w.roster a).unreserve b) : Course w w' a (some (.frees b))
  | stays (roster : w'.roster a = w.roster a) : Course w w' a none

variable {w : World} {a : AttemptId}

theorem mayAllocate_free {s : Attempt} {priority : Priority} {id : ContainerId}
    (found : w.attempts.get? a = some s) (may : w.mayAllocate s priority id = true) :
    (w.roster a).live.get? id = none ∧
      ∀ b x, (w.roster a).reservations.get? b = some x → (w.container x).id ≠ id := by
  simp only [mayAllocate, Attempt.isLive, Table.contains, isReserved, Bool.and_eq_true,
    Bool.not_eq_true', Option.isSome_eq_false_iff, Option.isNone_iff_eq_none, List.any_eq_false,
    beq_iff_eq] at may
  obtain ⟨⟨_, idFree⟩, unreserved⟩ := may
  rw [roster_of_found found]
  exact ⟨idFree, fun b x at_ => unreserved x (Table.mem_values.mpr ⟨b, at_⟩)⟩

theorem allocate_begin {x : AttemptId} {s : Attempt} {node : Node} {n : NodeId} {priority : Priority}
    {c : Container} (locality : Locality) (found : w.attempts.get? x = some s)
    (offered : w.nodes.get? n = some node) (may : w.mayAllocate s priority c.id = true) :
    ∃ r w', w.allocate x locality n priority c = (some r, w') ∧ ¬ w.Knows r ∧ w'.Knows r ∧
      w'.container r = c ∧ Follows w w' ∧
      ∀ b, w'.roster b = if b = x then (w.roster x).begin c.id r else w.roster b := by
  simp only [allocate, found, offered, may, ↓reduceIte]
  obtain ⟨requests, demand⟩ := s.demand.consume priority (locality.places node.id node.rack)
  generalize made :
    ({ Record.make c s.id s.user node.partition with requests } : Record).start = record
  have same : record.container = c := made ▸ rfl
  have fresh : ¬ w.Knows (w.addRecord record).1 := by simp [Knows, addRecord]
  have known : (w.addRecord record).2.Knows (w.addRecord record).1 := by simp [Knows, addRecord]
  have container : (w.addRecord record).2.container (w.addRecord record).1 = c := by
    rw [World.container, addRecord_record, if_pos rfl, same]
  have follows := (((follows_refl w).addRecord record).updateAttempt x
    (f := (·.enroll w.clock c.id (w.addRecord record).1 demand)) fun _ => rfl).increase s .used
      node.partition c.resource
  have listed : ∀ b, (((w.addRecord record).2.updateAttempt x
      (·.enroll w.clock c.id (w.addRecord record).1 demand)).increase s .used node.partition
        c.resource).roster b =
      if b = x then (w.roster x).begin c.id (w.addRecord record).1 else w.roster b := by
    intro b
    rw [roster_increase, roster_updateAttempt (w.addRecord record).2 x found, roster_of_found found]
    rfl
  split
  · refine ⟨_, _, rfl, fresh, known, container, (follows.increase s .amUsed node.partition
      c.resource).updateAttempt x fun _ => rfl, fun b => ?_⟩
    have kept := roster_kept (((w.addRecord record).2.updateAttempt x
      (·.enroll w.clock c.id (w.addRecord record).1 demand)).increase s .used node.partition
        c.resource |>.increase s .amUsed node.partition c.resource) x (f := fun s =>
          { s with amAllocated := true, launch := s.launch.advance .assigned "" }) fun _ => rfl
    rw [roster_increase] at kept
    exact (congrFun kept b).trans (listed b)
  · exact ⟨_, _, rfl, fresh, known, container, follows, listed⟩

theorem complete_drop {x : AttemptId} {s : Attempt} {id : ContainerId} {r : RecordId}
    (found : w.attempts.get? x = some s) (live : s.live.get? id = some r) (report : ExitReport)
    (ending : Ending) (partition : Partition) :
    ∃ w', w.complete x id report ending partition = (true, w') ∧ Follows w w' ∧
      ∀ b, w'.roster b = if b = x then (w.roster x).drop id
        ((w.roster x).undelivered.filter fun u => (w.container u).id != id) else w.roster b := by
  simp only [complete, found, live]
  generalize others : (s.undelivered.filter fun u => (w.record u).id != id) = undelivered
  have gone := (((follows_refl w).updateAttempt x (f := fun s => { s.accrue w.clock with
    marks := (s.marks.unmark id).2, live := s.live.erase id, undelivered }) fun _ => rfl).updateRecord
      r (f := (·.finish report ending)) fun _ => rfl).updateQueue s.queue
        (·.countRelease 1 (w.record r).resource) |>.decrease s .used partition (w.record r).resource
  have listed : ∀ b, (w.updateAttempt x fun s => { s.accrue w.clock with
      marks := (s.marks.unmark id).2, live := s.live.erase id, undelivered }).roster b =
      if b = x then (w.roster x).drop id
        ((w.roster x).undelivered.filter fun u => (w.container u).id != id) else w.roster b := by
    intro b
    rw [roster_updateAttempt w x found, roster_of_found found, ← others]
    rfl
  split
  · refine ⟨_, rfl, (gone.decrease s .amUsed partition _).updateAttempt x fun _ => rfl, fun b => ?_⟩
    refine (congrFun (roster_kept _ x (f := fun s => { s with
      accrual := s.accrual.invalidate, launch := s.launch.advance .completed "" }) fun _ => rfl)
        b).trans ?_
    simpa using listed b
  · refine ⟨_, rfl, gone.updateAttempt x fun _ => rfl, fun b => ?_⟩
    refine (congrFun (roster_kept _ x (f := fun s => { s with
      accrual := s.accrual.invalidate, launch := s.launch }) fun _ => rfl) b).trans ?_
    simpa using listed b

theorem acquire_follows (l : List RecordId) :
    let w' := l.foldl (fun w r => w.updateRecord r (·.acquire)) w
    Follows w w' ∧ w'.attempts = w.attempts := by
  induction l generalizing w with
  | nil => exact ⟨follows_refl w, rfl⟩
  | cons r l ih =>
    have first := (follows_refl w).updateRecord r (f := (·.acquire)) fun y => by
      unfold Record.acquire
      split <;> rfl
    obtain ⟨rest, same⟩ := ih (w := w.updateRecord r (·.acquire))
    exact ⟨first.trans rest, same⟩

theorem snapshot_deliver {x : AttemptId} {s : Attempt} (found : w.attempts.get? x = some s)
    (cluster : Resource) : Follows w (w.snapshot x cluster).2 ∧
      ∀ b, (w.snapshot x cluster).2.roster b =
        if b = x then (w.roster x).deliver else w.roster b := by
  obtain ⟨follows, same⟩ := acquire_follows (w := w) s.undelivered
  simp only [snapshot, found]
  refine ⟨follows.updateAttempt x fun _ => rfl, fun b => ?_⟩
  rw [roster_updateAttempt _ x (same ▸ found), roster_of_found found]
  simp only [roster, same]
  rfl

theorem retire_roster (s : Attempt) (b : Berth) (r : RecordId) (c : AttemptId) :
    (w.retire s b r).roster c =
      if c = s.id then (w.roster s.id).unreserve b else w.roster c := by
  simp only [retire, unaccount, roster_updateQueue, roster_decrease, roster_unindex]

theorem retireDisplaced_roster {s : Attempt} (same : (w.roster s.id).reservations = s.reservations)
    (n : NodeId) (displaced : Option Slot) (r : RecordId) (c : AttemptId) :
    (w.retireDisplaced s n displaced r).roster c =
      if c = s.id then (w.roster s.id).giveUp (outdone displaced n r) else w.roster c := by
  have kept : w.roster c = if c = s.id then w.roster s.id else w.roster c := by
    split
    · rename_i own
      rw [own]
    · rfl
  unfold retireDisplaced
  split
  · exact kept
  · rename_i held
    -- With no entry at the slot's priority nothing is retired, and there is nothing to give up.
    by_cases again : held.record = r
    · have gone : outdone (some held) n r = none := by
        simp [outdone, Option.filter_some, again]
      rw [if_pos again, gone]
      exact kept
    · have gone : outdone (some held) n r = some ⟨held.priority, n⟩ := by
        simp [outdone, again]
      rw [if_neg again, gone]
      split
      · rename_i absent
        rw [← same] at absent
        rw [Roster.giveUp, Roster.unreserve_absent absent]
        exact kept
      · exact retire_roster s _ _ c

theorem settle_roster (s : Attempt) (known : (w.attempts.get? s.id).isSome) (b : Berth)
    (resource : Resource) (r : RecordId) (c : AttemptId) : (w.settle s b resource r).roster c =
      if c = s.id then (w.roster s.id).reserve b r else w.roster c := by
  unfold settle account
  rw [roster_index _ _ _ (by simpa [World.updateRecord] using known), roster_increase, roster_updateRecord]

structure Enters (w w' : World) (x : AttemptId) (b : Berth) (r : RecordId) (gone : Option Berth) :
    Prop where
  follows : Follows w w'
  roster : ∀ c, w'.roster c =
    if c = x then ((w.roster x).giveUp gone).reserve b r else w.roster c

variable {x : AttemptId} {s : Attempt}

theorem Follows.settles {m m' : World} (follows : Follows w m') (named : s.id = x)
    (found : w.attempts.get? x = some s) (same : m.roster = w.roster) {n : NodeId}
    {displaced : Option Slot} {r : RecordId}
    (after : m'.roster = (m.retireDisplaced s n displaced r).roster) (b : Berth)
    (resource : Resource) :
    Enters w (m'.settle s b resource r) x b r (outdone displaced n r) where
  follows := follows.settle s b resource r
  roster c := by
    subst named
    have listed : (m.roster s.id).reservations = s.reservations := by
      rw [same, roster_of_found found]
      rfl
    rw [settle_roster s (follows.known (by rw [found]; rfl)) b resource r c, after,
      retireDisplaced_roster listed, retireDisplaced_roster listed, if_pos rfl, same]
    split <;> rfl

theorem reserveFresh_enters (found : w.attempts.get? x = some s) (named : s.id = x)
    {priority : Priority} {node : Node} {c : Container} {r : RecordId} {w' : World}
    (answer : w.reserveFresh s priority node c = (.ok r, w')) :
    Enters w w' x ⟨priority, node.id⟩ r (outdone node.slot node.id r) ∧ w'.Knows r ∧
      w'.container r = c := by
  obtain ⟨fresh, filled, made, rfl, _, rfl⟩ := reserveFresh_made answer
  have rest := (((follows_refl (w.addRecord fresh).2).addNode filled).retireDisplaced s node.id
    node.slot (w.addRecord fresh).1).updateQueue s.queue (·.countReservation c.resource)
  have known : (w.addRecord fresh).2.Knows (w.addRecord fresh).1 := by simp [Knows, addRecord]
  have container : (w.addRecord fresh).2.container (w.addRecord fresh).1 = c := by
    rw [World.container, addRecord_record, if_pos rfl, ← made]
    rfl
  obtain ⟨known', same⟩ := (rest.settle s ⟨priority, node.id⟩ c.resource _).records _ known
  exact ⟨(((follows_refl w).addRecord fresh).trans rest).settles named found
    (m := (w.addRecord fresh).2.addNode filled) rfl rfl _ _, known', same.trans container⟩

theorem Follows.renew {m : World} (follows : Follows w m) (s : Attempt) (priority : Priority)
    (p : Partition) (r : RecordId) : Follows w (m.renew s priority p r) :=
  ((follows.decrease s .reserved _ _).updateRecord r (f := fun record =>
    { record with partition := p }) fun _ => rfl).updateAttempt s.id
      (f := (·.countReReservation priority)) fun _ => rfl

theorem roster_renew (w : World) (s : Attempt) (priority : Priority) (p : Partition)
    (r : RecordId) : (w.renew s priority p r).roster = w.roster := by
  unfold World.renew unaccount
  rw [roster_kept _ s.id (f := (·.countReReservation priority)) fun _ => rfl,
    roster_updateRecord, roster_decrease]

theorem reserveAgain_enters (found : w.attempts.get? x = some s) (named : s.id = x)
    {priority : Priority} {node : Node} {resource : Resource} {r r' : RecordId} {w' : World}
    (answer : w.reserveAgain s priority node resource r = (.ok r', w')) :
    Enters w w' x ⟨priority, node.id⟩ r' (outdone node.slot node.id r') ∧ r' = r := by
  obtain ⟨rfl, filled, _, rfl⟩ := reserveAgain_made answer
  have before := ((follows_refl w).addNode filled).retireDisplaced s node.id node.slot r'
  exact ⟨(before.renew s priority node.partition r').settles named found (m := w.addNode filled) rfl
    (roster_renew _ _ _ _ _) _ _, rfl⟩

theorem reserve_enters (filed : ∀ n node, w.nodes.get? n = some node → node.id = n)
    (own : ∀ a s, w.attempts.get? a = some s → s.id = a) {priority : Priority} {n : NodeId}
    {existing : Option RecordId} {c : Container} {r : RecordId} {w' : World}
    (answer : w.reserve x priority n existing c = .ok (r, w')) :
    Enters w w' x ⟨priority, n⟩ r (outdone (w.slot? n) n r) ∧
      ((w.roster x).reservations.get? ⟨priority, n⟩ = some r ∨
        (w'.Knows r ∧ w'.container r = c ∧ (w.roster x).live.get? c.id = none)) := by
  obtain ⟨s, node, found, offered, idFree, made⟩ := reserve_made answer
  obtain rfl := filed n node offered
  have slot : w.slot? node.id = node.slot := by
    simp [slot?, offered]
  rw [slot, roster_of_found found]
  rcases made with fresh | ⟨old, there, again⟩
  · obtain ⟨enters, known, container⟩ := reserveFresh_enters found (own x s found) fresh
    exact ⟨enters, .inr ⟨known, container, idFree⟩⟩
  · obtain ⟨enters, rfl⟩ := reserveAgain_enters found (own x s found) again
    exact ⟨enters, .inl there⟩

theorem vacate_id (r : RecordId) (node : Node) : (node.vacate r).id = node.id := by
  unfold Node.vacate
  split <;> rfl

theorem move_cases (x : AttemptId) (r : RecordId) (source target : NodeId) :
    w.moveReservation x r source target = (false, w) ∨
      ∃ w' s priority, w.moveReservation x r source target = (true, w') ∧
        w.attempts.get? x = some s ∧ (w.record r).reservedPriority = some priority ∧
        s.reservations.get? ⟨priority, source⟩ = some r ∧
        Enters w w' x ⟨priority, target⟩ r (some ⟨priority, source⟩) := by
  simp only [moveReservation]
  split
  · rename_i s sourceNode targetNode found offered wanted
    split
    · exact .inl rfl
    · rename_i priority at_
      split
      · rename_i may
        split
        · exact .inl rfl
        · rename_i filled vacant
          refine .inr ⟨_, s, priority, rfl, found, at_, may.2.2, ?_, ?_⟩
          · exact (((((follows_refl w).addNode filled).updateNode source (vacate_id r)).unindex x
              _).updateRecord r (f := fun record =>
                record.reserve record.reservedResource target priority) fun _ => rfl).index x _ r
          · intro c
            have known : (((((w.addNode filled).updateNode source (·.vacate r)).unindex x
                ⟨priority, source⟩).updateRecord r fun record => record.reserve
                  record.reservedResource target priority).attempts.get? x).isSome := by
              simp [World.updateRecord, unindex, World.addNode, World.updateNode, found]
            rw [roster_index _ _ _ known]
            simp only [roster_updateRecord, roster_unindex, roster_updateNode, roster_addNode,
              ↓reduceIte]
            split <;> rfl
      · exact .inl rfl
  · exact .inl rfl

/-- One call or event, seen from every attempt. -/
structure Passage (w w' : World) (deeds : AttemptId → Option Deed) : Prop where
  follows : Follows w w'
  course : ∀ a, Course w w' a (deeds a)

theorem passage_kept {w' : World} {deeds : AttemptId → Option Deed} (follows : Follows w w')
    (same : w'.roster = w.roster) (none : ∀ a, deeds a = none) : Passage w w' deeds where
  follows := follows
  course a := by
    rw [none a]
    exact .stays (congrFun same a)

theorem passage_idle {w' : World} {deeds : AttemptId → Option Deed} (same : w' = w)
    (none : ∀ a, deeds a = none) : Passage w w' deeds :=
  passage_kept (same ▸ follows_refl w) (same ▸ rfl) none

theorem passage_updateAttempt {deeds : AttemptId → Option Deed} (x : AttemptId)
    {f : Attempt → Attempt} (charter : ∀ s, (f s).charter = s.charter)
    (kept : ∀ s, (f s).roster = s.roster) (none : ∀ a, deeds a = none) :
    Passage w (w.updateAttempt x f) deeds :=
  passage_kept ((follows_refl w).updateAttempt x charter) (roster_kept w x kept) none

theorem passage_at {w' : World} {deeds : AttemptId → Option Deed} {d : Option Deed}
    (follows : Follows w w') (here : Course w w' x d)
    (others : ∀ b, b ≠ x → w'.roster b = w.roster b)
    (told : ∀ a, deeds a = if x = a then d else none) : Passage w w' deeds where
  follows := follows
  course a := by
    rw [told a]
    split
    · rename_i same
      exact same ▸ here
    · rename_i other
      exact .stays (others a fun same => other same.symm)

section Calls
variable (x)

theorem allocate_cases (locality : Locality) (n : NodeId) (priority : Priority) (c : Container) :
    w.allocate x locality n priority c = (none, w) ∨
      ∃ s node, w.attempts.get? x = some s ∧ w.nodes.get? n = some node ∧
        w.mayAllocate s priority c.id = true := by
  cases found : w.attempts.get? x with
  | none => exact .inl (by simp [allocate, found])
  | some s =>
    cases offered : w.nodes.get? n with
    | none => exact .inl (by simp [allocate, found, offered])
    | some node =>
      by_cases may : w.mayAllocate s priority c.id
      · exact .inr ⟨s, node, rfl, rfl, may⟩
      · exact .inl (by simp [allocate, found, offered, may])

theorem complete_cases (id : ContainerId) (report : ExitReport) (ending : Ending)
    (partition : Partition) : w.complete x id report ending partition = (false, w) ∨
      ∃ s r, w.attempts.get? x = some s ∧ s.live.get? id = some r := by
  cases found : w.attempts.get? x with
  | none => exact .inl (by simp [complete, found])
  | some s =>
    cases live : s.live.get? id with
    | none => exact .inl (by simp [complete, found, live])
    | some r => exact .inr ⟨s, r, rfl, live⟩

theorem mark_cases (id : ContainerId) : w.mark x id = (false, w) ∨
    ∃ s, w.attempts.get? x = some s ∧ s.isLive id = true ∧
      w.mark x id = (true, w.updateAttempt x fun s' => { s' with marks := (s.marks.mark id).2 }) := by
  cases found : w.attempts.get? x with
  | none => exact .inl (by simp [mark, found])
  | some s =>
    by_cases live : s.isLive id
    · cases marked : s.marks.has id with
      | false =>
        refine .inr ⟨s, rfl, live, ?_⟩
        simp only [mark, found, live, ↓reduceIte]
        simp [Marks.mark, marked]
      | true =>
        refine .inl ?_
        simp only [mark, found, live, ↓reduceIte, s.marks.mark_marked marked, updateAttempt,
          Table.modify_same found]
        simp [Marks.mark, marked]
    · exact .inl (by simp [mark, found, live])

theorem unreserve_cases (priority : Priority) (n : NodeId) :
    w.unreserve x priority n = (false, w) ∨
      ∃ s r, w.attempts.get? x = some s ∧ s.reservations.get? ⟨priority, n⟩ = some r := by
  cases found : w.attempts.get? x with
  | none => exact .inl (by simp [unreserve, found])
  | some s =>
    cases reserved : s.reservations.get? ⟨priority, n⟩ with
    | none => exact .inl (by simp [unreserve, found, reserved])
    | some r => exact .inr ⟨s, r, rfl, reserved⟩

theorem passage_allocate (locality : Locality) (n : NodeId) (priority : Priority) (c : Container) :
    Passage w (w.allocate x locality n priority c).2
      (w.deedOf · (.allocate x locality n priority c)) := by
  rcases allocate_cases (w := w) x locality n priority c with refused | ⟨s, node, found, offered, may⟩
  · exact passage_idle (congrArg Prod.snd refused) fun _ => if_neg (by simp [refused])
  · obtain ⟨r, w', answer, fresh, known, container, follows, roster⟩ :=
      allocate_begin locality found offered may
    obtain ⟨idFree, unreserved⟩ := mayAllocate_free found may
    simp only [answer]
    refine passage_at (x := x) (d := some (.begins c)) follows ?_ (fun b other => ?_) fun a => ?_
    · exact .begins fresh known container idFree unreserved (by rw [roster, if_pos rfl])
    · rw [roster, if_neg other]
    · exact if_congr (by simp [answer]) rfl rfl

theorem passage_complete (id : ContainerId) (report : ExitReport) (ending : Ending)
    (partition : Partition) : Passage w (w.complete x id report ending partition).2
      (w.deedOf · (.complete x id report ending partition)) := by
  rcases complete_cases (w := w) x id report ending partition with refused | ⟨s, r, found, live⟩
  · exact passage_idle (congrArg Prod.snd refused) fun _ => if_neg (by simp [refused])
  · obtain ⟨w', answer, follows, roster⟩ := complete_drop found live report ending partition
    simp only [answer]
    refine passage_at (x := x) (d := some (.ends id)) follows ?_ (fun b other => ?_) fun a => ?_
    · refine .ends ?_ (by rw [roster, if_pos rfl])
      rw [roster_of_found found]
      exact Option.isSome_iff_exists.mpr ⟨r, live⟩
    · rw [roster, if_neg other]
    · exact if_congr (by simp [answer]) rfl rfl

theorem passage_mark (id : ContainerId) :
    Passage w (w.mark x id).2 (w.deedOf · (.mark x id)) := by
  rcases mark_cases (w := w) x id with refused | ⟨s, found, live, answer⟩
  · exact passage_idle (congrArg Prod.snd refused) fun _ => if_neg (by simp [refused])
  · have listed := roster_updateAttempt w x found
      fun s' => { s' with marks := (s.marks.mark id).2 }
    simp only [answer]
    refine passage_at (x := x) (d := some (.marks id))
      ((follows_refl w).updateAttempt x fun _ => rfl) (.marks ?_ ?_) (fun b other => ?_) fun a => ?_
    · rw [roster_of_found found]
      exact live
    · rw [listed, if_pos rfl, roster_of_found found]
      rfl
    · rw [listed, if_neg other]
    · exact if_congr (by simp [answer]) rfl rfl

theorem passage_snapshot (cluster : Resource) :
    Passage w (w.snapshot x cluster).2 (w.deedOf · (.snapshot x cluster)) := by
  have told : ∀ a, w.deedOf a (.snapshot x cluster) = if x = a then some .delivers else none :=
    fun _ => rfl
  cases found : w.attempts.get? x with
  | none =>
    simp only [snapshot, found]
    refine passage_at (follows_refl w) (.delivers ?_) (fun _ _ => rfl) told
    simp [roster, found, Roster.deliver]
  | some s =>
    obtain ⟨follows, listed⟩ := snapshot_deliver found cluster
    refine passage_at follows (.delivers ?_) (fun b other => ?_) told
    · exact (listed x).trans (if_pos rfl)
    · exact (listed b).trans (if_neg other)

theorem passage_reserve (filed : ∀ n node, w.nodes.get? n = some node → node.id = n)
    (own : ∀ a s, w.attempts.get? a = some s → s.id = a) (priority : Priority) (n : NodeId)
    (existing : Option RecordId) (c : Container) :
    Passage w (w.perform (.reserve x priority n existing c))
      (w.deedOf · (.reserve x priority n existing c)) := by
  cases answer : w.reserve x priority n existing c with
  | error e =>
    exact passage_idle (perform_refused answer) (by simp [deedOf, answer])
  | ok result =>
    obtain ⟨r, w'⟩ := result
    have told : ∀ a, w.deedOf a (.reserve x priority n existing c) =
        if x = a then some (.reserves ⟨priority, n⟩ r (outdone (w.slot? n) n r)) else none := by
      simp [deedOf, answer]
    obtain ⟨⟨follows, listed⟩, origin⟩ := reserve_enters filed own answer
    rw [perform_reserved answer]
    refine passage_at follows (.reserves (by rw [listed, if_pos rfl]) ?_) (fun b other => ?_) told
    · rcases origin with there | ⟨known, container, idFree⟩
      · exact .inl ⟨_, there⟩
      · exact .inr ⟨known, container ▸ idFree⟩
    · rw [listed, if_neg other]

theorem passage_unreserve (filed : ∀ a s, w.attempts.get? a = some s → s.id = a) (priority : Priority)
    (n : NodeId) :
    Passage w (w.unreserve x priority n).2 (w.deedOf · (.unreserve x priority n)) := by
  rcases unreserve_cases (w := w) x priority n with refused | ⟨s, r, found, reserved⟩
  · exact passage_idle (congrArg Prod.snd refused) fun _ => if_neg (by simp [refused])
  · obtain rfl := filed x s found
    have told : ∀ a, w.deedOf a (.unreserve s.id priority n) =
        if s.id = a then some (.frees ⟨priority, n⟩) else none :=
      fun _ => if_congr (by simp [unreserve, found, reserved]) rfl rfl
    simp only [unreserve, found, reserved]
    generalize reset : (w.updateAttempt s.id fun s =>
      { s with reReservations := s.reReservations.erase priority }) = m
    have kept : m.roster = w.roster := reset ▸ roster_kept w s.id fun _ => rfl
    have first : Follows w m := reset ▸ (follows_refl w).updateAttempt s.id fun _ => rfl
    have listed := retire_roster (w := m) s ⟨priority, n⟩ r
    rw [kept] at listed
    refine passage_at ((first.retire s ⟨priority, n⟩ r).updateNode n (vacate_id r)) (.frees ?_)
      (fun b other => ?_) told
    · exact (listed s.id).trans (if_pos rfl)
    · exact (listed b).trans (if_neg other)

theorem passage_move (r : RecordId) (source target : NodeId) :
    Passage w (w.moveReservation x r source target).2 (w.deedOf · (.move x r source target)) := by
  rcases move_cases (w := w) x r source target with refused | ⟨w', s, priority, moved, found, at_,
    reserved, follows, listed⟩
  · exact passage_idle (congrArg Prod.snd refused) fun _ => if_neg (by simp [refused])
  · have told : ∀ a, w.deedOf a (.move x r source target) = if x = a then
        some (.reserves ⟨priority, target⟩ r (some ⟨priority, source⟩)) else none := by
      simp [deedOf, moved, at_]
    simp only [moved]
    refine passage_at follows (.reserves (by rw [listed, if_pos rfl]) (.inl ⟨⟨priority, source⟩, ?_⟩))
      (fun b other => ?_) told
    · rw [roster_of_found found]
      exact reserved
    · rw [listed, if_neg other]

theorem passage_relabel (id : ContainerId) (old new : Partition) :
    Passage w (w.relabel x id old new).2 fun _ => none := by
  simp only [relabel]
  split
  · exact passage_idle rfl fun _ => rfl
  · split
    · exact passage_idle rfl fun _ => rfl
    · rename_i s _ _ r _
      split
      · exact passage_idle rfl fun _ => rfl
      · have used := ((follows_refl w).decrease s .used old (w.record r).resource).increase s .used new
          (w.record r).resource
        split
        · have whole := ((used.decrease s .amUsed old (w.record r).resource).increase s .amUsed new
            (w.record r).resource).updateAttempt x (f := fun s => { s with amPartition := new })
              fun _ => rfl
          refine passage_kept (whole.updateRecord r fun _ => rfl) ?_ fun _ => rfl
          rw [roster_updateRecord, roster_kept _ x (f := fun s => { s with amPartition := new })
            fun _ => rfl]
          simp only [roster_increase, roster_decrease]
        · refine passage_kept (used.updateRecord r fun _ => rfl) ?_ fun _ => rfl
          simp only [roster_updateRecord, roster_increase, roster_decrease]

theorem passage_pick (priority : Priority) (need cluster : Resource) :
    Passage w (w.findToUnreserve x priority need cluster).2 fun _ => none := by
  simp only [findToUnreserve]
  split
  · exact passage_idle rfl fun _ => rfl
  · split
    · exact passage_idle rfl fun _ => rfl
    · split
      · exact passage_updateAttempt x (fun _ => rfl) (fun _ => rfl) fun _ => rfl
      · exact passage_idle rfl fun _ => rfl

theorem passage_report (partitionResource : Resource) (capacity : Float) :
    Passage w (w.report x partitionResource capacity).2 fun _ => none := by
  simp only [report]
  split
  · exact passage_idle rfl fun _ => rfl
  · exact passage_updateAttempt x (fun _ => rfl) (fun _ => rfl) fun _ => rfl

theorem passage_transfer (previous : AttemptId) :
    Passage w (w.transfer x previous) fun _ => none := by
  simp only [transfer]
  split
  · exact passage_idle rfl fun _ => rfl
  · exact passage_updateAttempt x (fun _ => rfl) (fun _ => rfl) fun _ => rfl

theorem passage_processNode (n : NodeId) :
    Passage w (w.perform (.processNode x n)) fun _ => none := by
  simp only [perform]
  split
  · refine passage_updateAttempt x (fun s => ?_) (fun s => ?_) fun _ => rfl <;>
      · unfold Attempt.processNode
        split <;> rfl
  · exact passage_idle rfl fun _ => rfl

end Calls

theorem passage_updateNode (n : NodeId) {f : Node → Node} (named : ∀ node, (f node).id = node.id) :
    Passage w (w.updateNode n f) fun _ => none :=
  passage_kept ((follows_refl w).updateNode n named) rfl fun _ => rfl

/-- Attempts and nodes stand under their own names. -/
structure Filed (w : World) : Prop where
  attempts : ∀ a s, w.attempts.get? a = some s → s.id = a
  nodes : ∀ n node, w.nodes.get? n = some node → node.id = n

theorem Opening.filed (opening : w.Opening) : w.Filed where
  attempts _ _ found := (opening.attempts found).1
  nodes _ _ found := (opening.nodes found).1

theorem Filed.follows {w' : World} (filed : w.Filed) (follows : Follows w w') : w'.Filed where
  nodes := follows.nodes filed.nodes
  attempts := by
    intro a s found
    have same := follows.attempts a
    rw [found, Option.map_some] at same
    obtain ⟨old, before, kept⟩ := Option.map_eq_some_iff.mp same.symm
    exact (congrArg (·.1) kept).symm.trans (filed.attempts a old before)

theorem passage_perform (filed : w.Filed) (c : Call) : Passage w (w.perform c) (w.deedOf · c) := by
  cases c with
  | allocate x locality n priority c => exact passage_allocate x locality n priority c
  | complete x id report ending partition => exact passage_complete x id report ending partition
  | relabel x id old new => exact passage_relabel x id old new
  | mark x id => exact passage_mark x id
  | reserve x priority n existing c =>
    exact passage_reserve x filed.nodes filed.attempts priority n existing c
  | unreserve x priority n => exact passage_unreserve x filed.attempts priority n
  | move x r source target => exact passage_move x r source target
  | pick x priority need cluster => exact passage_pick x priority need cluster
  | snapshot x cluster => exact passage_snapshot x cluster
  | report x partitionResource capacity => exact passage_report x partitionResource capacity
  | transfer x previous => exact passage_transfer x previous
  | stop x => exact passage_updateAttempt x (fun _ => rfl) (fun _ => rfl) fun _ => rfl
  | request x requests => exact passage_updateAttempt x (fun _ => rfl) (fun _ => rfl) fun _ => rfl
  | limitBy x limit => exact passage_updateAttempt x (fun _ => rfl) (fun _ => rfl) fun _ => rfl
  | setHeadroom x r => exact passage_updateAttempt x (fun _ => rfl) (fun _ => rfl) fun _ => rfl
  | skipNode x note => exact passage_updateAttempt x (fun _ => rfl) (fun _ => rfl) fun _ => rfl
  | processNode x n => exact passage_processNode x n
  | setPartition n p => exact passage_updateNode n fun _ => rfl
  | claim n r =>
    refine passage_updateNode n fun node => ?_
    unfold Node.claim?
    split <;> rfl
  | release n r => exact passage_updateNode n fun _ => rfl
  | setClock now =>
    exact passage_kept ⟨fun _ => rfl, fun filed => filed, fun _ known => ⟨known, rfl⟩⟩ rfl
      fun _ => rfl

theorem filed_ofList (nodes : List Node) : ∀ n node,
    (Table.ofList (nodes.map fun node => (node.id, node))).get? n = some node → node.id = n := by
  intro n node found
  obtain ⟨other, _, same⟩ := List.mem_map.mp (Table.mem_of_ofList found)
  obtain ⟨named, rfl⟩ := Prod.mk.inj same
  exact named

theorem passage (filed : w.Filed) (e : Event) : Passage w (w.undergo e) (w.deed · e) := by
  cases e with
  | call c => exact passage_perform filed c
  | refit nodes =>
    refine passage_kept ⟨fun _ => rfl, fun _ => filed_ofList nodes, fun _ known => ⟨known, rfl⟩⟩ rfl
      fun _ => rfl

theorem Filed.through {events : List Event} (filed : w.Filed) : (w.through events).Filed := by
  induction events generalizing w with
  | nil => exact filed
  | cons e events ih => exact ih (filed.follows (passage filed e).follows)

theorem through_preserves (holds : World → Prop)
    (step : ∀ w e, w.Filed → holds w → holds (w.undergo e)) {events : List Event} (filed : w.Filed)
    (start : holds w) : holds (w.through events) := by
  induction events generalizing w with
  | nil => exact start
  | cons e events ih => exact ih (filed.follows (passage filed e).follows) (step w e filed start)

end World
end ClusterLedger
