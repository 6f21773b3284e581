import ClusterLedger.Proofs.History
/- Calls that answer no: they leave the world as it was, a reservation is refused for two reasons
   only, and what was ended or given up stays so until it is begun or reserved anew. -/
namespace ClusterLedger.World
variable {w : World} {a : AttemptId}

/-- The answer by which a call says that it did nothing. Calls that always act have none. -/
def Refuses (w : World) : Call → Prop
  | .allocate a locality n priority c => (w.allocate a locality n priority c).1 = none
  | .complete a id report ending partition => (w.complete a id report ending partition).1 = false
  | .relabel a id old new => (w.relabel a id old new).1 = false
  | .mark a id => (w.mark a id).1 = false
  | .reserve a priority n existing c => ∃ e, w.reserve a priority n existing c = .error e
  | .unreserve a priority n => (w.unreserve a priority n).1 = false
  | .move a r source target => (w.moveReservation a r source target).1 = false
  | .pick a priority need cluster => (w.findToUnreserve a priority need cluster).1 = none
  | _ => False

theorem refused_unchanged {c : Call} (refuses : w.Refuses c) : w.perform c = w := by
  cases c with
  | allocate x locality n priority c =>
    rcases allocate_cases (w := w) x locality n priority c with refused | ⟨s, node, found, offered, may⟩
    · simp [perform, refused]
    · obtain ⟨r, w', answer, _⟩ := allocate_begin locality found offered may
      simp [Refuses, answer] at refuses
  | complete x id report ending partition =>
    rcases complete_cases (w := w) x id report ending partition with refused | ⟨s, r, found, live⟩
    · simp [perform, refused]
    · obtain ⟨w', answer, _⟩ := complete_drop found live report ending partition
      simp [Refuses, answer] at refuses
  | relabel x id old new =>
    simp only [Refuses, relabel] at refuses
    simp only [perform, relabel]
    split
    · rfl
    · split
      · rfl
      · split
        · rfl
        · rename_i s found _ r live moved
          simp [found, live, moved] at refuses
  | mark x id =>
    rcases mark_cases (w := w) x id with refused | ⟨s, _, _, answer⟩
    · simp [perform, refused]
    · simp [Refuses, answer] at refuses
  | reserve x priority n existing c =>
    obtain ⟨e, refused⟩ := refuses
    exact perform_refused refused
  | unreserve x priority n =>
    rcases unreserve_cases (w := w) x priority n with refused | ⟨s, r, found, reserved⟩
    · simp [perform, refused]
    · simp [Refuses, unreserve, found, reserved] at refuses
  | move x r source target =>
    rcases move_cases (w := w) x r source target with refused | ⟨w', s, priority, moved, _⟩
    · simp [perform, refused]
    · simp [Refuses, moved] at refuses
  | pick x priority need cluster =>
    simp only [Refuses, findToUnreserve] at refuses
    simp only [perform, findToUnreserve]
    split
    · rfl
    · split
      · rfl
      · split
        · rename_i s found _ n r picked there
          simp [found, picked, there] at refuses
        · rfl
  | _ => exact refuses.elim

theorem node_reserve_error (node : Node) (priority : Priority) (r : RecordId) (e : SlotOccupied) :
    node.reserve a priority r = .error e ↔
      ∃ held, node.slot = some held ∧ held.attempt ≠ a ∧ e = ⟨node.id, held.attempt⟩ := by
  unfold Node.reserve
  cases node.slot with
  | none => simp
  | some held =>
    by_cases own : held.attempt = a
    · simp [own]
    · simp only [own, ↓reduceIte, Except.error.injEq, Option.some.injEq, exists_eq_left', ne_eq,
        not_false_eq_true, true_and]
      exact eq_comm

theorem reserveFresh_error (s : Attempt) (priority : Priority) (node : Node) (c : Container)
    (e : SlotOccupied) : (w.reserveFresh s priority node c).1 = .error e ↔
      ∃ held, node.slot = some held ∧ held.attempt ≠ s.id ∧ e = ⟨node.id, held.attempt⟩ := by
  generalize made : Record.make c s.id s.user node.partition = fresh
  rw [← node_reserve_error node priority (w.addRecord fresh).1 e]
  simp only [reserveFresh, made]
  cases node.reserve s.id priority (w.addRecord fresh).1 <;> simp

theorem reserveAgain_error (s : Attempt) (priority : Priority) (node : Node) (resource : Resource)
    (r : RecordId) (e : SlotOccupied) : (w.reserveAgain s priority node resource r).1 = .error e ↔
      ∃ held, node.slot = some held ∧ held.attempt ≠ s.id ∧ e = ⟨node.id, held.attempt⟩ := by
  rw [← node_reserve_error node priority r e, reserveAgain]
  cases node.reserve s.id priority r <;> simp

theorem reserveOver_error (s : Attempt) (priority : Priority) (node : Node)
    (standing existing : Option RecordId) (c : Container) (e : SlotOccupied) :
    (w.reserveOver s priority node standing existing c).1 = .error e ↔
      ∃ held, node.slot = some held ∧ held.attempt ≠ s.id ∧ e = ⟨node.id, held.attempt⟩ := by
  unfold reserveOver
  split
  · split
    · exact reserveAgain_error s priority node c.resource _ e
    · exact reserveFresh_error s priority node c e
  · exact reserveFresh_error s priority node c e

theorem reserve_error {s : Attempt} {n : NodeId} {node : Node} (found : w.attempts.get? a = some s)
    (offered : w.nodes.get? n = some node) (named : s.id = a) (filed : node.id = n)
    (priority : Priority) (existing : Option RecordId) (c : Container) (e : LedgerError) :
    w.reserve a priority n existing c = .error e ↔
      (e = .containerLive c.id ∧ (w.running? a c.id).isSome) ∨
      (w.running? a c.id = none ∧ ∃ held, w.slot? n = some held ∧ held.attempt ≠ a ∧
        e = .node ⟨n, held.attempt⟩) := by
  subst named filed
  have running : w.running? s.id c.id = s.live.get? c.id := by
    simp [running?, found]
  have slot : w.slot? node.id = node.slot := by
    simp [slot?, offered]
  have answers : w.reserve s.id priority node.id existing c = .error e ↔
      (w.tryReserve s.id priority node.id existing c).1 = .error e :=
    reserve_eq_error.trans ⟨congrArg Prod.fst, fun e => Prod.ext e (tryReserve_refused e)⟩
  rw [answers, running, slot]
  simp only [tryReserve, found, offered]
  by_cases live : s.isLive c.id
  · have running : (s.live.get? c.id).isSome := live
    have taken : s.live.get? c.id ≠ none := by
      intro idle
      simp [idle] at running
    simp only [live, ↓reduceIte, Except.error.injEq, running, and_true, taken, false_and, or_false]
    exact eq_comm
  · have idle : s.live.get? c.id = none := by
      simpa [Attempt.isLive, Table.contains] using live
    simp only [live, idle, Option.isSome_none, Bool.false_eq_true, ↓reduceIte, and_false, true_and,
      false_or]
    rw [mapError_error]
    constructor
    · rintro ⟨taken, refused, rfl⟩
      obtain ⟨held, at_, other, rfl⟩ :=
        (reserveOver_error s priority node _ existing c taken).mp refused
      exact ⟨held, at_, other, rfl⟩
    · rintro ⟨held, at_, other, rfl⟩
      exact ⟨_, (reserveOver_error s priority node _ existing c _).mpr ⟨held, at_, other, rfl⟩, rfl⟩

theorem history_preserves (holds : Roster → Prop) (allowed : Deed → Prop)
    (step : ∀ {w w' : World} {d}, Course w w' a d → (∀ deed, d = some deed → allowed deed) →
      holds (w.roster a) → holds (w'.roster a))
    (filed : w.Filed) (start : holds (w.roster a)) {events : List Event}
    (along : ∀ deed ∈ w.history a events, allowed deed) :
    holds ((w.through events).roster a) := by
  induction events generalizing w with
  | nil => exact start
  | cons e events ih =>
    have passage := passage filed e
    refine ih (filed.follows passage.follows) (step (passage.course a) (fun deed told => ?_) start)
      fun deed later => ?_
    · exact along deed (by simp [history, told])
    · exact along deed (by simp [history, later])

theorem course_idle {w' : World} {d : Option Deed} {id : ContainerId} (course : Course w w' a d)
    (other : ∀ deed, d = some deed → ∀ c, deed = .begins c → c.id ≠ id)
    (idle : (w.roster a).live.get? id = none) : (w'.roster a).live.get? id = none := by
  cases course with
  | @begins c r fresh known container idFree unreserved roster =>
    rw [roster, Roster.begin, Table.lookup_insert, if_neg fun same => other _ rfl c rfl same.symm]
    exact idle
  | @ends ended live roster =>
    rw [roster, Roster.drop, Table.lookup_erase]
    split
    · rfl
    · exact idle
  | marks live roster => rw [roster]; exact idle
  | delivers roster => rw [roster]; exact idle
  | @reserves b r gone roster origin =>
    rw [roster]
    exact ((w.roster a).giveUp_within gone).live ▸ idle
  | frees roster => rw [roster]; exact idle
  | stays roster => rw [roster]; exact idle

theorem within_vacant {ρ ρ' : Roster} {b : Berth} (within : ρ'.Within ρ)
    (vacant : ρ.reservations.get? b = none) : ρ'.reservations.get? b = none := by
  cases found : ρ'.reservations.get? b with
  | none => rfl
  | some r => simp [within.reservations b r found] at vacant

theorem course_vacant {w' : World} {d : Option Deed} {b : Berth} (course : Course w w' a d)
    (other : ∀ deed, d = some deed → ∀ r gone, deed ≠ .reserves b r gone)
    (vacant : (w.roster a).reservations.get? b = none) :
    (w'.roster a).reservations.get? b = none := by
  cases course with
  | begins fresh known container idFree unreserved roster => rw [roster]; exact vacant
  | ends live roster => rw [roster]; exact vacant
  | marks live roster => rw [roster]; exact vacant
  | delivers roster => rw [roster]; exact vacant
  | @reserves b' r gone roster origin =>
    have apart : b ≠ b' := by
      rintro rfl
      exact other _ rfl r gone rfl
    rw [roster, Roster.reserve, Table.lookup_insert, if_neg apart]
    exact within_vacant ((w.roster a).giveUp_within gone) vacant
  | @frees b' roster =>
    rw [roster]
    exact within_vacant ((w.roster a).unreserve_within b') vacant
  | stays roster => rw [roster]; exact vacant

theorem complete_idle {id : ContainerId} (idle : (w.roster a).live.get? id = none)
    (report : ExitReport) (ending : Ending) (partition : Partition) :
    w.complete a id report ending partition = (false, w) := by
  rcases complete_cases (w := w) a id report ending partition with refused | ⟨s, r, found, live⟩
  · exact refused
  · rw [roster_of_found found] at idle
    exact absurd idle (by simp [Attempt.roster, live])

theorem unreserve_vacant {priority : Priority} {n : NodeId}
    (vacant : (w.roster a).reservations.get? ⟨priority, n⟩ = none) :
    w.unreserve a priority n = (false, w) := by
  rcases unreserve_cases (w := w) a priority n with refused | ⟨s, r, found, reserved⟩
  · exact refused
  · rw [roster_of_found found] at vacant
    exact absurd vacant (by simp [Attempt.roster, reserved])

theorem complete_ends_once (filed : w.Filed) {id : ContainerId} {report : ExitReport}
    {ending : Ending} {partition : Partition}
    (ended : (w.complete a id report ending partition).1 = true) {since : List Event}
    (unused : ∀ c, .begins c ∈ (w.perform (.complete a id report ending partition)).history a since →
      c.id ≠ id) (report' : ExitReport) (ending' : Ending) (partition' : Partition) :
    let w' := (w.perform (.complete a id report ending partition)).through since
    w'.complete a id report' ending' partition' = (false, w') := by
  have passage := passage_perform filed (.complete a id report ending partition)
  refine complete_idle (history_preserves (fun ρ => ρ.live.get? id = none)
    (fun deed => ∀ c, deed = .begins c → c.id ≠ id) course_idle
      (filed.follows passage.follows) ?_ ?_) report' ending' partition'
  · rcases complete_cases (w := w) a id report ending partition with refused | ⟨s, r, found, live⟩
    · simp [refused] at ended
    · obtain ⟨w', answer, _, roster⟩ := complete_drop found live report ending partition
      simp [perform, answer, roster, Roster.drop]
  · rintro deed member c rfl
    exact unused c member

theorem unreserve_frees_once (filed : w.Filed) {priority : Priority} {n : NodeId}
    (freed : (w.unreserve a priority n).1 = true) {since : List Event}
    (unused : ∀ r gone, .reserves ⟨priority, n⟩ r gone ∉
      (w.perform (.unreserve a priority n)).history a since) :
    let w' := (w.perform (.unreserve a priority n)).through since
    w'.unreserve a priority n = (false, w') := by
  have passage := passage_perform filed (.unreserve a priority n)
  refine unreserve_vacant (history_preserves (fun ρ => ρ.reservations.get? ⟨priority, n⟩ = none)
    (fun deed => ∀ r gone, deed ≠ .reserves ⟨priority, n⟩ r gone) course_vacant
      (filed.follows passage.follows) ?_ ?_)
  · rcases unreserve_cases (w := w) a priority n with refused | ⟨s, r, found, reserved⟩
    · simp [refused] at freed
    · obtain rfl := filed.attempts a s found
      simp [perform, unreserve, found, reserved, retire_roster, Roster.unreserve]
  · rintro deed member r gone rfl
    exact unused r gone member

/-- No call that answers no leaves a trace; a reservation is refused for a running name or a slot
    of another attempt and for nothing else; and ending or giving up twice does nothing. -/
theorem refusals_change_nothing {start : World} (opening : start.Opening) (past : List Event) :
    let w := start.through past
    (∀ c, w.Refuses c → w.perform c = w) ∧
    (∀ a priority n existing c e, (w.attempts.get? a).isSome → (w.nodes.get? n).isSome →
      (w.reserve a priority n existing c = .error e ↔
        (e = .containerLive c.id ∧ (w.running? a c.id).isSome) ∨
        (w.running? a c.id = none ∧ ∃ held, w.slot? n = some held ∧ held.attempt ≠ a ∧
          e = .node ⟨n, held.attempt⟩))) ∧
    (∀ a id report ending partition, (w.complete a id report ending partition).1 = true →
      ∀ since, let ended := w.perform (.complete a id report ending partition)
      (∀ c, .begins c ∈ ended.history a since → c.id ≠ id) →
        ∀ report' ending' partition', let w' := ended.through since
        w'.complete a id report' ending' partition' = (false, w')) ∧
    (∀ a priority n, (w.unreserve a priority n).1 = true →
      ∀ since, let freed := w.perform (.unreserve a priority n)
      (∀ r gone, .reserves ⟨priority, n⟩ r gone ∉ freed.history a since) →
        let w' := freed.through since
        w'.unreserve a priority n = (false, w')) := by
  have filed : (start.through past).Filed := opening.filed.through
  refine ⟨fun c => refused_unchanged, ?_, ?_, ?_⟩
  · intro a priority n existing c e known there
    obtain ⟨s, found⟩ := Option.isSome_iff_exists.mp known
    obtain ⟨node, offered⟩ := Option.isSome_iff_exists.mp there
    exact reserve_error found offered (filed.attempts a s found) (filed.nodes n node offered)
      priority existing c e
  · intro a id report ending partition ended since _ unused
    exact complete_ends_once filed ended unused
  · intro a priority n freed since _ unused
    exact unreserve_frees_once filed freed unused

theorem refusals_change_nothing_sample :
    let past : List Event := [
      .call (.request ⟨"a"⟩ [⟨⟨1⟩, anyPlace, ⟨512, 1⟩, 1, true, ""⟩]),
      .call (.allocate ⟨"a"⟩ .offSwitch ⟨"n1"⟩ ⟨1⟩ ⟨⟨"c1"⟩, ⟨"n1"⟩, ⟨512, 1⟩, ⟨1⟩, false, none⟩),
      .call (.reserve ⟨"b"⟩ ⟨1⟩ ⟨"n2"⟩ none ⟨⟨"c1"⟩, ⟨"n2"⟩, ⟨4096, 1⟩, ⟨1⟩, false, none⟩)]
    let w := sample.through past
    let ended := w.perform (.complete ⟨"a"⟩ ⟨"c1"⟩ ⟨0, ""⟩ .finished "")
    (∀ existing, w.reserve ⟨"a"⟩ ⟨1⟩ ⟨"n2"⟩ existing ⟨⟨"c2"⟩, ⟨"n2"⟩, ⟨512, 1⟩, ⟨1⟩, false, none⟩ =
      .error (.node ⟨⟨"n2"⟩, ⟨"b"⟩⟩)) ∧
    (∀ existing, w.reserve ⟨"a"⟩ ⟨1⟩ ⟨"n2"⟩ existing ⟨⟨"c1"⟩, ⟨"n2"⟩, ⟨512, 1⟩, ⟨1⟩, false, none⟩ =
      .error (.containerLive ⟨"c1"⟩)) ∧
    ended.complete ⟨"a"⟩ ⟨"c1"⟩ ⟨1, ""⟩ .killed "" = (false, ended) ∧
    w.perform (.mark ⟨"b"⟩ ⟨"c1"⟩) = w := by
  intro past w ended
  obtain ⟨unchanged, refused, once, _⟩ := refusals_change_nothing sample_opening past
  have unmarked : (w.mark ⟨"b"⟩ ⟨"c1"⟩).1 = false := by decide
  refine ⟨fun existing => ?_, fun existing => ?_, ?_, unchanged (.mark ⟨"b"⟩ ⟨"c1"⟩) unmarked⟩
  · refine (refused ⟨"a"⟩ ⟨1⟩ ⟨"n2"⟩ existing _ _ (by decide) (by decide)).mpr (.inr ⟨by decide, ?_⟩)
    exact ⟨⟨⟨"b"⟩, ⟨1⟩, ⟨1⟩⟩, by decide, by decide, rfl⟩
  · exact (refused ⟨"a"⟩ ⟨1⟩ ⟨"n2"⟩ existing _ _ (by decide) (by decide)).mpr
      (.inl ⟨rfl, by decide⟩)
  · exact once ⟨"a"⟩ ⟨"c1"⟩ ⟨0, ""⟩ .finished "" (by decide) [] (by simp [history]) ⟨1, ""⟩ .killed ""

end ClusterLedger.World
