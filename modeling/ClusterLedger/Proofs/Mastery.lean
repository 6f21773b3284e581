import ClusterLedger.Proofs.Memo
import ClusterLedger.Proofs.Delivery
/- The launch of a master against its container. What an attempt notes of the launch comes from four
   calls; read along the attempt's deeds, it is where the container of its master is. -/
namespace ClusterLedger

def LaunchState.rank : LaunchState → Nat
  | inactivated => 0
  | activated => 1
  | assigned => 2
  | launched => 3
  | completed => 4

theorem LaunchState.rank_le_completed (state : LaunchState) : state.rank ≤ completed.rank := by
  cases state <;> decide

inductive Phase
  | absent
  | waits (id : ContainerId)
  | runs (id : ContainerId)
  | finished
deriving DecidableEq

namespace Phase

def step : Phase → Deed → Phase
  | absent, .begins c => if c.isMaster then waits c.id else absent
  | waits id, .delivers => runs id
  | waits id, .ends ended => if ended = id then finished else waits id
  | runs id, .ends ended => if ended = id then finished else runs id
  | phase, _ => phase

def name? : Phase → Option ContainerId
  | waits id | runs id => some id
  | absent | finished => none

def Waiting : Phase → Prop
  | waits _ => True
  | _ => False

/-- What is noted of the launch while the container is there. -/
def Shows : Phase → LaunchState → Prop
  | absent, state => state = .inactivated ∨ state = .activated
  | waits _, state => state = .assigned
  | runs _, state => state = .launched
  | finished, state => state = .completed

theorem step_beside {d : Deed} (phase : Phase) (begins : ∀ c, d = .begins c → c.isMaster = false)
    (delivers : d ≠ .delivers) (ends : ∀ id, d ≠ .ends id) : phase.step d = phase := by
  cases phase <;> cases d <;> simp_all [step]

theorem name?_ends (phase : Phase) (ended id : ContainerId) :
    (phase.step (.ends ended)).name? = some id ↔ id ≠ ended ∧ phase.name? = some id := by
  cases phase with
  | absent | finished => simp [step, name?]
  | waits own | runs own =>
    by_cases same : ended = own
    · simp [step, name?, same, eq_comm]
    · have apart : own = id → id ≠ ended := fun is => by rw [← is]; exact Ne.symm same
      simpa [step, name?, same] using apart

theorem waiting_ends (phase : Phase) (ended : ContainerId) :
    (phase.step (.ends ended)).Waiting ↔ phase.Waiting ∧ phase.name? ≠ some ended := by
  cases phase with
  | absent | finished => simp [step, Waiting]
  | waits own =>
    by_cases same : ended = own
    · simp [step, Waiting, name?, same]
    · simp [step, Waiting, name?, same, Ne.symm same]
  | runs own =>
    by_cases same : ended = own <;> simp [step, Waiting, same]

theorem name?_delivers (phase : Phase) : (phase.step .delivers).name? = phase.name? := by
  cases phase <;> rfl

theorem waiting_delivers (phase : Phase) : ¬ (phase.step .delivers).Waiting := by
  cases phase <;> exact id

theorem waits_after (id : ContainerId) (deeds : List Deed) : deeds.foldl step (waits id) =
    if .ends id ∈ deeds then finished else if .delivers ∈ deeds then runs id else waits id := by
  have rest : ∀ deeds : List Deed, deeds.foldl step finished = finished := by
    intro deeds
    induction deeds with
    | nil => rfl
    | cons d deeds ih => exact ih
  have later : ∀ deeds : List Deed, deeds.foldl step (runs id) =
      if .ends id ∈ deeds then finished else runs id := by
    intro deeds
    induction deeds with
    | nil => simp
    | cons d deeds ih =>
      rw [List.foldl_cons]
      cases d with
      | ends ended =>
        by_cases same : ended = id
        · simp [step, same, rest]
        · simp [step, same, Ne.symm same, ih]
      | _ => simp [step, ih]
  induction deeds with
  | nil => simp
  | cons d deeds ih =>
    rw [List.foldl_cons]
    cases d with
    | ends ended =>
      by_cases same : ended = id
      · simp [step, same, rest]
      · simp [step, same, Ne.symm same, ih]
    | delivers => simp [step, later]
    | _ => simp [step, ih]

end Phase

def Deed.masters (deeds : List Deed) : List Container :=
  deeds.filterMap fun
    | .begins c => if c.isMaster then some c else none
    | _ => none

theorem Deed.masters_append (deeds more : List Deed) :
    masters (deeds ++ more) = masters deeds ++ masters more := List.filterMap_append

theorem Phase.absent_of_masters {deeds : List Deed} (none : Deed.masters deeds = []) :
    deeds.foldl step absent = absent := by
  induction deeds with
  | nil => rfl
  | cons d deeds ih =>
    rw [← List.singleton_append, Deed.masters_append, List.append_eq_nil_iff] at none
    have first : step absent d = absent := by
      cases d with
      | begins c =>
        have plain : c.isMaster = false := by simpa [Deed.masters] using none.1
        simp [step, plain]
      | _ => rfl
    rw [List.foldl_cons, first, ih none.2]

namespace World
variable {w : World} {a : AttemptId}

/-- What an event makes of the launch of a master, with the deed that the event comes to. -/
inductive Steers (w : World) (a : AttemptId) (m m' : Memo) : Option Deed → Prop
  | assigned {c} (master : c.isMaster = true) (launch : m'.launch = m.launch.advance .assigned "")
      (taken : m'.amAllocated = true) : Steers w a m m' (some (.begins c))
  | launched (waits : w.masterWaits a = true) (launch : m'.launch = m.launch.advance .launched "")
      (same : m'.amAllocated = m.amAllocated) : Steers w a m m' (some .delivers)
  | completed {id} (runs : w.masterRuns a id = true)
      (launch : m'.launch = m.launch.advance .completed "")
      (same : m'.amAllocated = m.amAllocated) : Steers w a m m' (some (.ends id))
  | activated {node} (open_ : m.amAllocated = false) (launch : m'.launch = m.launch.processed node)
      (same : m'.amAllocated = m.amAllocated) : Steers w a m m' none
  | rests {d} (plain : ∀ c, d = some (.begins c) → c.isMaster = false)
      (idle : d = some .delivers → w.masterWaits a = false)
      (others : ∀ id, d = some (.ends id) → w.masterRuns a id = false)
      (state : m'.launch.state = m.launch.state) (message : m'.launch.message = m.launch.message)
      (same : m'.amAllocated = m.amAllocated) : Steers w a m m' d

theorem steers_kept {m m' : Memo} {d : Option Deed} (launch : m'.launch = m.launch)
    (same : m'.amAllocated = m.amAllocated) (plain : ∀ c, d = some (.begins c) → c.isMaster = false)
    (idle : d = some .delivers → w.masterWaits a = false)
    (others : ∀ id, d = some (.ends id) → w.masterRuns a id = false) : Steers w a m m' d :=
  .rests plain idle others (by rw [launch]) (by rw [launch]) same

theorem masterRuns_ends {id : ContainerId} (runs : w.masterRuns a id = true) (report : ExitReport)
    (ending : Ending) (partition : Partition) :
    (w.complete a id report ending partition).1 = true := by
  cases live : w.running? a id with
  | none => simp [masterRuns, live] at runs
  | some r =>
    obtain ⟨s, found, there⟩ := Option.bind_eq_some_iff.mp live
    obtain ⟨w', answer, _⟩ := complete_drop found there report ending partition
    rw [answer]

theorem steers_note (m : Memo) (c : Call) : Steers w a m (w.note a m c) (w.deedOf a c) := by
  cases c with
  | allocate x locality n p c =>
    simp only [note, deedOf]
    cases offered : w.nodes.get? n with
    | none =>
      have refused : (w.allocate x locality n p c).1 = none := by
        unfold allocate
        rw [offered]
        split <;> simp_all
      simp only [refused, Option.isSome_none, Bool.false_eq_true, and_false, ↓reduceIte]
      exact steers_kept rfl rfl (by simp) (by simp) (by simp)
    | some node =>
      by_cases granted : x = a ∧ (w.allocate x locality n p c).1.isSome
      · simp only [if_pos granted, Memo.serve]
        cases master : c.isMaster with
        | true => exact .assigned master rfl rfl
        | false => exact steers_kept rfl rfl (by simp [master]) (by simp) (by simp)
      · simp only [if_neg granted]
        exact steers_kept rfl rfl (by simp) (by simp) (by simp)
  | complete x id report ending partition =>
    simp only [note, deedOf]
    by_cases runs : x = a ∧ w.masterRuns x id
    · obtain ⟨rfl, runs⟩ := runs
      simp only [runs, masterRuns_ends runs, and_self, ↓reduceIte]
      exact .completed runs rfl rfl
    · rw [if_neg runs]
      refine steers_kept rfl rfl (by simp) (by simp) fun ended told => ?_
      split at told
      · rename_i own
        obtain rfl := Deed.ends.inj (Option.some.inj told)
        exact Bool.eq_false_iff.mpr fun running => runs ⟨own.1, own.1 ▸ running⟩
      · simp at told
  | snapshot x cluster =>
    simp only [note, deedOf]
    by_cases waits : x = a ∧ w.masterWaits x
    · obtain ⟨rfl, waits⟩ := waits
      simp only [waits, and_self, ↓reduceIte]
      exact .launched waits rfl rfl
    · rw [if_neg waits]
      refine steers_kept rfl rfl (by simp) (fun told => ?_) (by simp)
      split at told
      · rename_i own
        exact Bool.eq_false_iff.mpr fun waiting => waits ⟨own, own ▸ waiting⟩
      · simp at told
  | processNode x n =>
    simp only [note, deedOf]
    split
    · rename_i node _
      split
      · unfold Memo.process
        split
        · exact steers_kept rfl rfl (by simp) (by simp) (by simp)
        · rename_i open_
          exact .activated (by simpa using open_) rfl rfl
      · exact steers_kept rfl rfl (by simp) (by simp) (by simp)
    · exact steers_kept rfl rfl (by simp) (by simp) (by simp)
  | skipNode x text =>
    refine .rests (by simp [deedOf]) (by simp [deedOf]) (by simp [deedOf]) ?_ ?_ ?_ <;>
      simp only [note] <;> split <;> rfl
  | reserve | mark | unreserve | move | request | stop =>
    -- Whatever the guards say, these write other fields and come to deeds of other kinds.
    refine steers_kept ?_ ?_ ?_ ?_ ?_ <;> simp only [note, deedOf]
    all_goals
      repeat' split
      all_goals simp [Memo.countAgain]
  | _ => exact steers_kept rfl rfl (by simp [deedOf]) (by simp [deedOf]) (by simp [deedOf])

theorem masterRuns_iff {id : ContainerId} : w.masterRuns a id = true ↔
    ∃ r, (w.roster a).live.get? id = some r ∧ (w.container r).isMaster = true := by
  rw [masterRuns, Option.any_eq_true, running?_roster]
  rfl

theorem masterWaits_iff : w.masterWaits a = true ↔
    ∃ r ∈ (w.roster a).undelivered, (w.container r).isMaster = true := by
  rw [masterWaits, List.any_eq_true, waiting_roster]
  rfl

theorem runs_kept {w' : World} (orderly : w.Orderly (w.roster a)) (follows : Follows w w')
    (id : ContainerId) :
    (∃ r, (w.roster a).live.get? id = some r ∧ (w'.container r).isMaster = true) ↔
      w.masterRuns a id = true := by
  rw [masterRuns_iff]
  refine exists_congr fun r => and_congr_right fun found => ?_
  rw [(follows.records r (orderly.running id r found).1).2]

theorem waits_kept {w' : World} (orderly : w.Orderly (w.roster a)) (follows : Follows w w') :
    (∃ r ∈ (w.roster a).undelivered, (w'.container r).isMaster = true) ↔
      w.masterWaits a = true := by
  rw [masterWaits_iff]
  refine exists_congr fun r => and_congr_right fun member => ?_
  rw [(follows.records r (orderly.waits_known member)).2]

/-- The phase says where the container of the attempt's master is. -/
structure Tracks (w : World) (a : AttemptId) (phase : Phase) : Prop where
  runs : ∀ id, w.masterRuns a id = true ↔ phase.name? = some id
  waits : w.masterWaits a = true ↔ phase.Waiting

theorem Tracks.step_idle {phase : Phase} {d : Deed} (tracks : w.Tracks a phase)
    (plain : ∀ c, d = .begins c → c.isMaster = false) (idle : d = .delivers → w.masterWaits a = false)
    (others : ∀ id, d = .ends id → w.masterRuns a id = false) : phase.step d = phase := by
  cases d with
  | begins c => simpa using phase.step_beside (d := .begins c) plain (by simp) (by simp)
  | delivers =>
    have none : ¬ phase.Waiting := by simp [← tracks.waits, idle rfl]
    cases phase with
    | waits id => exact absurd trivial none
    | absent | runs | finished => rfl
  | ends id =>
    have other : phase.name? ≠ some id := by simp [← tracks.runs, others id rfl]
    cases phase with
    | waits own | runs own =>
      have apart : id ≠ own := fun same => other (congrArg some same.symm)
      simp [Phase.step, apart]
    | absent | finished => rfl
  | marks | reserves | frees => exact phase.step_beside (by simp) (by simp) (by simp)

theorem Tracks.kept {w' : World} {phase : Phase} (orderly : w.Orderly (w.roster a))
    (tracks : w.Tracks a phase) (follows : Follows w w')
    (live : (w'.roster a).live = (w.roster a).live)
    (undelivered : (w'.roster a).undelivered = (w.roster a).undelivered) : w'.Tracks a phase where
  runs id := by rw [masterRuns_iff, live, runs_kept orderly follows, tracks.runs]
  waits := by rw [masterWaits_iff, undelivered, waits_kept orderly follows, tracks.waits]

theorem runs_of_waits (orderly : w.Orderly (w.roster a)) {r : RecordId}
    (member : r ∈ (w.roster a).undelivered) (master : (w.container r).isMaster = true) :
    w.masterRuns a (w.container r).id = true :=
  masterRuns_iff.mpr ⟨r, orderly.waits r member, master⟩

theorem Tracks.begins {w' : World} {phase : Phase} {c : Container} {r : RecordId}
    (orderly : w.Orderly (w.roster a)) (tracks : w.Tracks a phase) (follows : Follows w w')
    (container : w'.container r = c) (idFree : (w.roster a).live.get? c.id = none)
    (roster : w'.roster a = (w.roster a).begin c.id r)
    (first : c.isMaster = true → phase = .absent) : w'.Tracks a (phase.step (.begins c)) := by
  have runs : ∀ id, w'.masterRuns a id = true ↔
      (id = c.id ∧ c.isMaster = true) ∨ w.masterRuns a id = true := by
    intro id
    rw [masterRuns_iff, ← runs_kept orderly follows, roster]
    simp only [Roster.begin, Table.lookup_insert]
    by_cases own : id = c.id
    · simp [own, idFree, container]
    · simp [own]
  have waits : w'.masterWaits a = true ↔ c.isMaster = true ∨ w.masterWaits a = true := by
    rw [masterWaits_iff, ← waits_kept orderly follows, roster]
    simp [Roster.begin, or_and_right, exists_or, container, or_comm]
  cases master : c.isMaster with
  | true =>
    obtain rfl := first master
    have waiting : Phase.step .absent (.begins c) = .waits c.id := by simp [Phase.step, master]
    rw [waiting]
    refine ⟨fun id => ?_, ?_⟩
    · rw [runs, tracks.runs]
      simp [master, Phase.name?, eq_comm]
    · rw [waits, master]
      simp [Phase.Waiting]
  | false =>
    rw [phase.step_beside (by simp [master]) (by simp) (by simp)]
    exact ⟨fun id => by rw [runs, ← tracks.runs]; simp [master],
      by rw [waits, ← tracks.waits]; simp [master]⟩

theorem Tracks.ends {w' : World} {phase : Phase} {ended : ContainerId}
    (orderly : w.Orderly (w.roster a)) (tracks : w.Tracks a phase) (follows : Follows w w')
    (roster : w'.roster a = (w.roster a).drop ended
      ((w.roster a).undelivered.filter fun r => (w.container r).id != ended)) :
    w'.Tracks a (phase.step (.ends ended)) := by
  have runs : ∀ id, w'.masterRuns a id = true ↔ id ≠ ended ∧ phase.name? = some id := by
    intro id
    rw [masterRuns_iff, ← tracks.runs, ← runs_kept orderly follows, roster]
    simp only [Roster.drop, Table.lookup_erase]
    by_cases own : id = ended <;> simp [own]
  -- A master that still waits runs, so it is the one that the phase names.
  have waits : w'.masterWaits a = true ↔ phase.Waiting ∧ phase.name? ≠ some ended := by
    rw [masterWaits_iff, ← tracks.waits, roster]
    simp only [Roster.drop, List.mem_filter, bne_iff_ne, ne_eq]
    constructor
    · rintro ⟨r, ⟨member, apart⟩, master⟩
      refine ⟨(waits_kept orderly follows).mp ⟨r, member, master⟩, fun named => ?_⟩
      rw [(follows.records r (orderly.waits_known member)).2] at master
      have own := (tracks.runs _).mp (runs_of_waits orderly member master)
      exact apart (Option.some.inj (own.symm.trans named))
    · rintro ⟨waits, apart⟩
      obtain ⟨r, member, master⟩ := masterWaits_iff.mp waits
      have own := (tracks.runs _).mp (runs_of_waits orderly member master)
      refine ⟨r, ⟨member, fun same => apart (same ▸ own)⟩, ?_⟩
      rw [(follows.records r (orderly.waits_known member)).2]
      exact master
  exact ⟨fun id => (runs id).trans (phase.name?_ends ended id).symm,
    waits.trans (phase.waiting_ends ended).symm⟩

theorem Tracks.delivers {w' : World} {phase : Phase} (orderly : w.Orderly (w.roster a))
    (tracks : w.Tracks a phase) (follows : Follows w w')
    (roster : w'.roster a = (w.roster a).deliver) : w'.Tracks a (phase.step .delivers) where
  runs id := by
    rw [phase.name?_delivers, ← tracks.runs, masterRuns_iff, ← runs_kept orderly follows, roster]
    rfl
  waits := by
    refine iff_of_false ?_ phase.waiting_delivers
    simp [masterWaits_iff, roster, Roster.deliver]

theorem Tracks.undergo {phase : Phase} (filed : w.Filed) (orderly : w.Orderly (w.roster a))
    (tracks : w.Tracks a phase) (e : Event)
    (first : ∀ c, w.deed a e = some (.begins c) → c.isMaster = true → phase = .absent) :
    (w.undergo e).Tracks a ((w.deed a e).toList.foldl Phase.step phase) := by
  obtain ⟨follows, course⟩ := passage filed e
  have course := course a
  generalize w.undergo e = w' at *
  generalize w.deed a e = d at *
  cases course with
  | begins fresh known container idFree unreserved roster =>
    exact tracks.begins orderly follows container idFree roster (first _ rfl)
  | ends live roster => exact tracks.ends orderly follows roster
  | delivers roster => exact tracks.delivers orderly follows roster
  | marks live roster | frees roster =>
    rw [Option.toList_some, List.foldl_cons, List.foldl_nil, phase.step_beside (by simp) (by simp)
      (by simp)]
    exact tracks.kept orderly follows (by rw [roster]; rfl) (by rw [roster]; rfl)
  | @reserves b r gone roster =>
    have left := (w.roster a).giveUp_within gone
    rw [Option.toList_some, List.foldl_cons, List.foldl_nil, phase.step_beside (by simp) (by simp)
      (by simp)]
    exact tracks.kept orderly follows (by rw [roster]; exact left.live)
      (by rw [roster]; exact left.undelivered)
  | stays roster => exact tracks.kept orderly follows (by rw [roster]) (by rw [roster])

structure Noted (m : Memo) (phase : Phase) : Prop where
  shows : phase.Shows m.launch.state
  taken : m.amAllocated = true ↔ phase ≠ .absent
  message : (m.launch.state = .inactivated ∧ m.launch.message = "") ∨
    ∃ detail, m.launch.message = m.launch.state.message ++ detail

/-- A launch goes from state to state as its container goes from phase to phase, and never back. -/
theorem Noted.steers {m m' : Memo} {phase : Phase} {d : Option Deed} (noted : Noted m phase)
    (tracks : w.Tracks a phase) (steers : Steers w a m m' d)
    (first : ∀ c, d = some (.begins c) → c.isMaster = true → phase = .absent) :
    Noted m' (d.toList.foldl Phase.step phase) ∧ m.launch.state.rank ≤ m'.launch.state.rank := by
  obtain ⟨shows, taken, message⟩ := noted
  cases steers with
  | @assigned c master launch allocated =>
    obtain rfl := first c rfl master
    refine ⟨⟨?_, ?_, .inr ⟨"", by rw [launch]; rfl⟩⟩, ?_⟩
    · simp [Phase.step, master, Phase.Shows, launch, Launch.advance]
    · simp [Phase.step, master, allocated]
    · rcases shows with shows | shows <;> simp [shows, launch, Launch.advance, LaunchState.rank]
  | launched waits launch same =>
    cases phase with
    | waits id =>
      refine ⟨⟨?_, ?_, .inr ⟨"", by rw [launch]; rfl⟩⟩, ?_⟩
      · simp [Phase.step, Phase.Shows, launch, Launch.advance]
      · simpa [Phase.step, same] using taken
      · simp [show m.launch.state = .assigned from shows, launch, Launch.advance, LaunchState.rank]
    | absent | runs | finished => exact (tracks.waits.mp waits).elim
  | @completed id runs launch same =>
    have named := (tracks.runs id).mp runs
    have ended : phase.step (.ends id) = .finished := by
      cases phase <;> simp_all [Phase.step, Phase.name?]
    have before : phase ≠ .absent := by
      rintro rfl
      simp [Phase.name?] at named
    rw [Option.toList_some, List.foldl_cons, List.foldl_nil, ended]
    refine ⟨⟨by rw [launch]; rfl, ?_, .inr ⟨"", by rw [launch]; rfl⟩⟩, ?_⟩
    · simpa [same, before] using taken
    · rw [launch]
      exact m.launch.state.rank_le_completed
  | activated open_ launch same =>
    have absent : phase = .absent := by
      by_contra present
      exact absurd (taken.mpr present) (by simp [open_])
    subst absent
    refine ⟨⟨.inr (by rw [launch]; rfl), by simp [same, open_], .inr ⟨_, by rw [launch]; rfl⟩⟩, ?_⟩
    rcases shows with shows | shows <;>
      simp [shows, launch, Launch.processed, Launch.advance, LaunchState.rank]
  | rests plain idle others state text same =>
    have still : d.toList.foldl Phase.step phase = phase := by
      cases d with
      | none => rfl
      | some d =>
        rw [Option.toList_some, List.foldl_cons, List.foldl_nil]
        exact tracks.step_idle (by simpa using plain) (by simpa using idle) (by simpa using others)
    rw [still]
    exact ⟨⟨state ▸ shows, same ▸ taken, by rwa [state, text]⟩, Nat.le_of_eq (by rw [state])⟩

theorem steers_undergo (w : World) (a : AttemptId) (e : Event) :
    ∃ f : Memo → Memo, (w.undergo e).memo? a = (w.memo? a).map f ∧
      ∀ m, Steers w a m (f m) (w.deed a e) := by
  cases e with
  | call c => exact ⟨(w.note a · c), memo_note a c, fun m => steers_note m c⟩
  | refit nodes =>
    refine ⟨id, by rw [Option.map_id]; rfl, fun m => ?_⟩
    exact steers_kept rfl rfl (by simp [deed]) (by simp [deed]) (by simp [deed])

variable {start : World}

theorem phase_absent {events : List Event} {e : Event} {c : Container}
    (once : (Deed.masters (start.history a (events ++ [e]))).length ≤ 1)
    (deed : (start.through events).deed a e = some (.begins c)) (master : c.isMaster = true) :
    (start.history a events).foldl Phase.step .absent = .absent := by
  rw [history_snoc, deed, Deed.masters_append, List.length_append] at once
  have here : (Deed.masters [.begins c]).length = 1 := by simp [Deed.masters, master]
  refine Phase.absent_of_masters (List.eq_nil_of_length_eq_zero ?_)
  rw [Option.toList_some, here] at once
  omega

theorem masters_past {past later : List Event}
    (once : (Deed.masters (start.history a (past ++ later))).length ≤ 1) :
    (Deed.masters (start.history a past)).length ≤ 1 := by
  induction later using List.reverseRecOn with
  | nil => simpa using once
  | append_singleton later e ih =>
    rw [← List.append_assoc, history_snoc, Deed.masters_append, List.length_append] at once
    exact ih (by omega)

/-- The deeds of the attempt have led to this phase, and what it notes shows that. -/
structure LaunchAt (w : World) (a : AttemptId) (phase : Phase) : Prop where
  tracks : w.Tracks a phase
  noted : ∀ m, w.memo? a = some m → Noted m phase

theorem Opening.launchAt (opening : start.Opening) (a : AttemptId) : start.LaunchAt a .absent := by
  have blank := opening.roster_blank a
  refine ⟨⟨fun id => ?_, ?_⟩, fun m memo => ?_⟩
  · simp [masterRuns_iff, blank, Phase.name?]
  · simp [masterWaits_iff, blank, Phase.Waiting]
  · obtain ⟨s, found, rfl⟩ := Option.map_eq_some_iff.mp memo
    have untouched := (opening.attempts found).2.1
    refine ⟨.inl ?_, ?_, .inl ⟨?_, ?_⟩⟩ <;>
      simp [Attempt.memo, untouched.launch, untouched.amAllocated]

theorem LaunchAt.undergo {phase : Phase} (filed : w.Filed) (orderly : w.Orderly (w.roster a))
    (launchAt : w.LaunchAt a phase) (e : Event)
    (first : ∀ c, w.deed a e = some (.begins c) → c.isMaster = true → phase = .absent) :
    (w.undergo e).LaunchAt a ((w.deed a e).toList.foldl Phase.step phase) ∧
      ∀ m, w.memo? a = some m → ∃ m', (w.undergo e).memo? a = some m' ∧
        m.launch.state.rank ≤ m'.launch.state.rank := by
  obtain ⟨f, becomes, steers⟩ := steers_undergo w a e
  have step := fun m memo => (launchAt.noted m memo).steers launchAt.tracks (steers m) first
  refine ⟨⟨launchAt.tracks.undergo filed orderly e first, fun m' after => ?_⟩, fun m memo => ?_⟩
  · rw [becomes] at after
    obtain ⟨m, memo, rfl⟩ := Option.map_eq_some_iff.mp after
    exact (step m memo).1
  · exact ⟨f m, by rw [becomes, memo, Option.map_some], (step m memo).2⟩

theorem launchAt_through (opening : start.Opening) {events : List Event}
    (once : (Deed.masters (start.history a events)).length ≤ 1) :
    (start.through events).LaunchAt a ((start.history a events).foldl Phase.step .absent) := by
  -- A master is the first one by the deeds before it, so the run grows at its end.
  induction events using List.reverseRecOn with
  | nil => exact opening.launchAt a
  | append_singleton events e ih =>
    have led := (ih (masters_past once)).undergo opening.filed.through
      (opening.orderly_through events a) e fun c deed master => phase_absent once deed master
    rw [history_snoc, List.foldl_append, through, List.foldl_append]
    exact led.1

theorem rank_through (opening : start.Opening) {past later : List Event}
    (once : (Deed.masters (start.history a (past ++ later))).length ≤ 1) {m : Memo}
    (memo : (start.through past).memo? a = some m) :
    ∃ m', (start.through (past ++ later)).memo? a = some m' ∧
      m.launch.state.rank ≤ m'.launch.state.rank := by
  induction later using List.reverseRecOn with
  | nil => exact ⟨m, by rwa [List.append_nil], Nat.le_refl _⟩
  | append_singleton later e ih =>
    rw [← List.append_assoc] at once ⊢
    obtain ⟨middle, there, reached⟩ := ih (masters_past once)
    have led := (launchAt_through opening (masters_past once)).undergo opening.filed.through
      (opening.orderly_through (past ++ later) a) e fun c deed master => phase_absent once deed master
    obtain ⟨m', after, step⟩ := led.2 middle there
    exact ⟨m', by rw [through, List.foldl_append]; exact after, reached.trans step⟩

/-- What is noted of a launch, against the master `c` that began and what was done `since`. -/
structure Reflects (w : World) (a : AttemptId) (state : LaunchState) (c : Container)
    (since : List Deed) : Prop where
  live : w.masterRuns a c.id = true ↔ .ends c.id ∉ since
  undelivered : w.masterWaits a = true ↔ .ends c.id ∉ since ∧ .delivers ∉ since
  assigned : state = .assigned ↔ .ends c.id ∉ since ∧ .delivers ∉ since
  launched : state = .launched ↔ .ends c.id ∉ since ∧ .delivers ∈ since
  completed : state = .completed ↔ .ends c.id ∈ since

theorem LaunchAt.reflects {m : Memo} {c : Container} {since : List Deed}
    (launchAt : w.LaunchAt a (since.foldl Phase.step (.waits c.id))) (memo : w.memo? a = some m) :
    w.Reflects a m.launch.state c since := by
  obtain ⟨⟨runs, waits⟩, noted⟩ := launchAt
  have shows := (noted m memo).shows
  have runs := runs c.id
  rw [Phase.waits_after] at runs waits shows
  by_cases ended : .ends c.id ∈ since
  · rw [if_pos ended] at runs waits shows
    have state : m.launch.state = .completed := shows
    constructor <;> simp [runs, waits, state, ended, Phase.name?, Phase.Waiting]
  · rw [if_neg ended] at runs waits shows
    by_cases delivered : .delivers ∈ since
    · rw [if_pos delivered] at runs waits shows
      have state : m.launch.state = .launched := shows
      constructor <;> simp [runs, waits, state, ended, delivered, Phase.name?, Phase.Waiting]
    · rw [if_neg delivered] at runs waits shows
      have state : m.launch.state = .assigned := shows
      constructor <;> simp [runs, waits, state, ended, delivered, Phase.name?, Phase.Waiting]

/-- While an attempt has one master at most, its launch never goes back, is not assigned before the
    master begins, and from there on shows whether that waits, was delivered or has ended. -/
theorem launch_follows_master {start : World} (opening : start.Opening) {a : AttemptId}
    {events : List Event} (once : (Deed.masters (start.history a events)).length ≤ 1) :
    (∀ past later s, events = past ++ later → (start.through past).attempts.get? a = some s →
      ∃ s', (start.through events).attempts.get? a = some s' ∧
        s.launch.state.rank ≤ s'.launch.state.rank) ∧
    ∀ s, (start.through events).attempts.get? a = some s →
      (Deed.masters (start.history a events) = [] →
        s.launch.state = .inactivated ∨ s.launch.state = .activated) ∧
      (∀ before c since, start.history a events = before ++ .begins c :: since →
        c.isMaster = true → (start.through events).Reflects a s.launch.state c since) ∧
      (s.launch.state = .inactivated ∧ s.launch.message = "" ∨
        ∃ detail, s.launch.message = s.launch.state.message ++ detail) := by
  have known : ∀ {w : World} {s : Attempt}, w.attempts.get? a = some s → w.memo? a = some s.memo :=
    fun found => by rw [memo?, found, Option.map_some]
  refine ⟨?_, fun s found => ?_⟩
  · rintro past later s rfl found
    obtain ⟨m', there, rank⟩ := rank_through opening once (known found)
    obtain ⟨s', found', rfl⟩ := Option.map_eq_some_iff.mp there
    exact ⟨s', found', rank⟩
  · have launchAt := launchAt_through opening once
    have noted := launchAt.noted _ (known found)
    refine ⟨fun none => ?_, fun before c since history master => ?_, ?_⟩
    · have shows := noted.shows
      rwa [Phase.absent_of_masters none] at shows
    · have begun : (Deed.masters [.begins c]).length = 1 := by simp [Deed.masters, master]
      rw [history, List.append_cons, Deed.masters_append, Deed.masters_append, List.length_append,
        List.length_append, begun] at once
      have none : Deed.masters before = [] := List.eq_nil_of_length_eq_zero (by omega)
      have begins : Phase.step .absent (.begins c) = .waits c.id := by simp [Phase.step, master]
      rw [history, List.foldl_append, Phase.absent_of_masters none, List.foldl_cons, begins] at launchAt
      exact launchAt.reflects (known found)
    · exact noted.message

/-- Nodes are processed before and after the master begins, and it ends before the snapshot. What was
    noted of the first node is told once, after the text of the state. -/
theorem launch_follows_master_sample :
    let master : Container := ⟨⟨"c1"⟩, ⟨"n1"⟩, ⟨512, 1⟩, ⟨1⟩, true, none⟩
    let events : List Event := [
      .call (.request ⟨"a"⟩ [⟨⟨1⟩, anyPlace, ⟨512, 1⟩, 3, true, ""⟩]),
      .call (.skipNode ⟨"a"⟩ "node n1 is full."),
      .call (.processNode ⟨"a"⟩ ⟨"n1"⟩),
      .call (.allocate ⟨"a"⟩ .offSwitch ⟨"n1"⟩ ⟨1⟩ master),
      .call (.processNode ⟨"a"⟩ ⟨"n2"⟩),
      .call (.complete ⟨"a"⟩ ⟨"c1"⟩ ⟨0, ""⟩ .finished ""),
      .call (.snapshot ⟨"a"⟩ ⟨8192, 8⟩)]
    (sample.through events).Reflects ⟨"a"⟩ .completed master [.ends ⟨"c1"⟩, .delivers] ∧
      ((sample.through (events.take 3)).memo? ⟨"a"⟩).map (·.launch.message) = some
        ("Application is activated, waiting for resources to be assigned for AM." ++
          "node n1 is full." ++ " Last Node which was processed for the application : n1 ( " ++
          "Partition : [], Total resource : <memory:8192, vCores:8>, " ++
          "Available resource : <memory:8192, vCores:8> ).") := by
  intro master events
  have story : sample.history ⟨"a"⟩ events = [.begins master, .ends ⟨"c1"⟩, .delivers] := by decide
  have once : (Deed.masters (sample.history ⟨"a"⟩ events)).length ≤ 1 := by rw [story]; decide
  obtain ⟨s, found⟩ := Option.isSome_iff_exists.mp
    (show ((sample.through events).attempts.get? ⟨"a"⟩).isSome = true by decide)
  have reflects := ((launch_follows_master sample_opening once).2 s found).2.1 [] master _ story rfl
  have completed : s.launch.state = .completed := reflects.completed.mpr List.mem_cons_self
  exact ⟨completed ▸ reflects, by decide +kernel⟩

end World
end ClusterLedger
