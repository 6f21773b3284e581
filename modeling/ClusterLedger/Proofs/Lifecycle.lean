import ClusterLedger.Proofs.Seating
import ClusterLedger.Proofs.Slots
/- The life of a record. It is allocated while its container waits for a snapshot and acquired once
   it was handed over, or it is reserved as long as an index has it. What no attempt lists any more is
   final: handles may be passed to any call at any time, and no call takes one that is not listed. -/
namespace ClusterLedger.World

/-- A record that was given out and that no attempt lists, live or reserved. -/
structure Retired (w : World) (x : RecordId) : Prop where
  known : w.Knows x
  idle : ∀ a c, w.running? a c ≠ some x
  unplaced : ∀ a b, w.reservation? a b ≠ some x

/-- Records come into lists when they are new, no live container becomes reserved, and what is not
    listed stays as it is. -/
structure Traces (w w' : World) : Prop where
  known : ∀ x, w.Knows x → w'.Knows x
  running : ∀ a c x, w.Knows x → w'.running? a c = some x → w.running? a c = some x
  reserved : ∀ a b x, w.Knows x → w'.reservation? a b = some x →
    ∃ b', w.reservation? a b' = some x
  unreserved : ∀ x, w.Knows x → (∀ a b, w.reservation? a b ≠ some x) →
    (w.record x).state ≠ .reserved → (w'.record x).state ≠ .reserved
  retired : ∀ x, w.Retired x → w'.record x = w.record x

/-- The state of a live container tells whether it was handed over. -/
def Staged (w : World) : Prop := ∀ a c r, w.running? a c = some r →
  (w.record r).state = if r ∈ w.waiting a then .allocated else .acquired

theorem Sound.filed {w : World} (sound : w.Sound) : w.Filed :=
  ⟨fun _ _ => sound.attemptNamed, fun _ _ => sound.nodeNamed⟩

section Tracing
variable {w m w' : World} {x : RecordId}

theorem Traces.unplaced (traces : Traces w w') (known : w.Knows x)
    (unplaced : ∀ a b, w.reservation? a b ≠ some x) (a : AttemptId) (b : Berth) :
    w'.reservation? a b ≠ some x := by
  intro stands
  obtain ⟨b', before⟩ := traces.reserved a b x known stands
  exact unplaced a b' before

theorem Retired.traces (retired : w.Retired x) (traces : Traces w w') : w'.Retired x where
  known := traces.known x retired.known
  idle a c runs := retired.idle a c (traces.running a c x retired.known runs)
  unplaced := traces.unplaced retired.known retired.unplaced

theorem traces_refl (w : World) : Traces w w where
  known _ known := known
  running _ _ _ _ runs := runs
  reserved _ b _ _ stands := ⟨b, stands⟩
  unreserved _ _ _ state := state
  retired _ _ := rfl

theorem Traces.trans (first : Traces w m) (second : Traces m w') : Traces w w' where
  known x known := second.known x (first.known x known)
  running a c x known runs :=
    first.running a c x known (second.running a c x (first.known x known) runs)
  reserved a b x known stands := by
    obtain ⟨b', middle⟩ := second.reserved a b x (first.known x known) stands
    exact first.reserved a b' x known middle
  unreserved x known unplaced state :=
    second.unreserved x (first.known x known) (first.unplaced known unplaced)
      (first.unreserved x known unplaced state)
  retired x retired :=
    (second.retired x (retired.traces first)).trans (first.retired x retired)

end Tracing

section Changes
variable {w w' : World} {a : AttemptId} {s s' : Attempt} {b : Berth} {r : RecordId}

theorem traces_begins {record} (step : Begins w w' a s s' r record) : Traces w w' := by
  have other : ∀ x, w.Knows x → x ≠ r := by
    rintro x known rfl
    exact step.fresh known
  have same : ∀ x, w.Knows x → w'.record x = w.record x :=
    fun x known => record_other step.records x (other x known)
  refine ⟨fun x known => (step.knows x).mpr (.inl known), ?_, ?_, ?_, ?_⟩
  · intro y c x known runs
    rw [step.running?, step.live, Table.lookup_insert, ← step.running?_before] at runs
    have := other x known
    grind
  · intro y b' x _ stands
    exact ⟨b', step.reservation?_same step.reservations y b' ▸ stands⟩
  · intro x known _ state
    rwa [same x known]
  · exact fun x retired => same x retired.known

theorem traces_ends {c partition report ending} (step : Ends w w' a s s' c r partition report ending) :
    Traces w w' := by
  have runs := (step.running?_before c).trans step.found
  refine ⟨fun x => (step.knows x).mpr, ?_, ?_, ?_, ?_⟩
  · intro y c' x _ left
    rw [step.running?, step.live, Table.lookup_erase, ← step.running?_before] at left
    grind
  · intro y b' x _ stands
    exact ⟨b', step.reservation?_same step.reservations y b' ▸ stands⟩
  · intro x _ _ state
    rw [step.records]
    split
    · simp [Record.finish]
    · exact state
  · rintro x ⟨_, idle, _⟩
    refine record_other step.records x ?_
    rintro rfl
    exact idle a c runs

theorem traces_relabels {c new} (step : Relabels w w' a s s' c r new) : Traces w w' := by
  have runs := (step.running?_before c).trans step.found
  refine ⟨fun x => (step.knows x).mpr, ?_, ?_, ?_, ?_⟩
  · intro y c' x _ later
    exact step.running?_same step.live y c' ▸ later
  · intro y b' x _ stands
    exact ⟨b', step.reservation?_same step.reservations y b' ▸ stands⟩
  · intro x _ _ state
    rw [step.records]
    split
    · rename_i same
      exact same ▸ state
    · exact state
  · rintro x ⟨_, idle, _⟩
    refine record_other step.records x ?_
    rintro rfl
    exact idle a c runs

theorem traces_index {postings : Usage → Usage} {notes : QueueMetrics → QueueMetrics}
    (turn : Turn w w' a s s' postings notes) (live : s'.live = s.live)
    (knows : ∀ x, w.Knows x → w'.Knows x)
    (index : ∀ b' x, w.Knows x → s'.reservations.get? b' = some x →
      ∃ b'', s.reservations.get? b'' = some x)
    (own : w.Knows r → ∃ b', s.reservations.get? b' = some r)
    (records : ∀ x, x ≠ r → w'.record x = w.record x) : Traces w w' := by
  have other : ∀ x, w.Knows x → (∀ y b', w.reservation? y b' ≠ some x) →
      w'.record x = w.record x := by
    intro x known unplaced
    refine records x ?_
    rintro rfl
    obtain ⟨b', found⟩ := own known
    exact unplaced a b' ((turn.reservation?_before b').trans found)
  refine ⟨knows, ?_, ?_, ?_, ?_⟩
  · intro y c x _ runs
    exact turn.running?_same live y c ▸ runs
  · intro y b' x known stands
    rw [turn.reservation?] at stands
    split at stands
    · rename_i same
      subst same
      obtain ⟨b'', found⟩ := index b' x known stands
      exact ⟨b'', (turn.reservation?_before b'').trans found⟩
    · exact ⟨b', stands⟩
  · intro x known unplaced state
    rwa [other x known unplaced]
  · rintro x ⟨known, _, unplaced⟩
    exact other x known unplaced

theorem traces_enlists {record} (step : Enlists w w' a s s' b r record) : Traces w w' := by
  refine traces_index step.toTurn step.live (fun x known => (step.knows x).mpr (.inl known)) ?_
    (fun known => absurd known step.fresh) (record_other step.records)
  intro b' x known found
  rw [step.reservations, Table.lookup_insert] at found
  split at found
  · obtain rfl := Option.some.inj found
    exact absurd known step.fresh
  · exact ⟨b', found⟩

theorem traces_drops (step : Drops w w' a s s' b r) : Traces w w' := by
  refine traces_index (r := r) step.toTurn step.live (fun x => (step.knows x).mpr) ?_
    (fun _ => ⟨b, step.found⟩) fun x _ => step.records x
  intro b' x _ found
  rw [step.reservations, Table.lookup_erase] at found
  split at found
  · simp at found
  · exact ⟨b', found⟩

theorem traces_remakes {partition resource} (step : Remakes w w' a s s' b r partition resource) :
    Traces w w' := by
  refine traces_index step.toTurn step.live (fun x => (step.knows x).mpr) ?_
    (fun _ => ⟨b, step.found⟩) (record_other step.records)
  exact fun b' x _ found => ⟨b', step.reservations ▸ found⟩

theorem traces_reseats {target} (step : Reseats w w' a s s' b target r) : Traces w w' := by
  refine traces_index step.toTurn step.live (fun x => (step.knows x).mpr) ?_
    (fun _ => ⟨b, step.found⟩) (record_other step.records)
  intro b' x _ found
  rw [step.reservations, Table.lookup_insert, Table.lookup_erase] at found
  split at found
  · exact ⟨b, Option.some.inj found ▸ step.found⟩
  · split at found
    · simp at found
    · exact ⟨b', found⟩

theorem Coherent.traces_delivers (coherent : w.Coherent) (step : Delivers w w' a s s') :
    Traces w w' := by
  refine ⟨fun x => (step.knows x).mpr, ?_, ?_, ?_, ?_⟩
  · intro y c x _ runs
    exact step.running?_same step.live y c ▸ runs
  · intro y b' x _ stands
    exact ⟨b', step.reservation?_same step.reservations y b' ▸ stands⟩
  · intro x _ _ state
    rw [step.records]
    split
    · unfold Record.acquire
      split
      · simp
      · exact state
    · exact state
  · rintro x ⟨_, idle, _⟩
    rw [step.records, if_neg]
    intro waits
    obtain ⟨c, runs⟩ := coherent.undelivered (step.waiting_before ▸ waits)
    exact idle a c runs

theorem traces_same (attempts : ∀ y c, w'.running? y c = w.running? y c)
    (index : ∀ y b', w'.reservation? y b' = w.reservation? y b') (knows : ∀ x, w'.Knows x ↔ w.Knows x)
    (records : ∀ x, w'.record x = w.record x) : Traces w w' where
  known x := (knows x).mpr
  running y c _ _ runs := attempts y c ▸ runs
  reserved y b' _ _ stands := ⟨b', index y b' ▸ stands⟩
  unreserved x _ _ state := (records x).symm ▸ state
  retired x _ := records x

end Changes

section Runs
variable {w w' : World}

theorem Outcome.traces {c : Call} (outcome : Outcome w c w') (coherent : w.Coherent) :
    Traces w w' := by
  cases outcome with
  | begins step => exact traces_begins step
  | ends step => exact traces_ends step
  | relabels step => exact traces_relabels step
  | reserves step => exact traces_enlists step.toEnlists
  | displaces _ first second =>
    exact (traces_drops first.toDrops).trans (traces_enlists second.toEnlists)
  | resizes _ step => exact traces_remakes step.toRemakes
  | lapses step => exact traces_drops step.toDrops
  | moves step => exact traces_reseats step.toReseats
  | delivers step => exact coherent.traces_delivers step
  | notes _ _ step =>
    exact traces_same (step.running?_same step.live) (step.reservation?_same step.reservations)
      step.knows step.records
  | tends _ step =>
    refine traces_same (fun y c => ?_) (fun y b => ?_) step.knows step.records
    · simp [running?, step.attempts]
    · simp [reservation?, step.attempts]

theorem Sound.traces (sound : w.Sound) (calls : List Call) : Traces w (w.after calls) := by
  induction calls generalizing w with
  | nil => exact traces_refl w
  | cons c calls ih =>
    exact ((outcome sound c).traces sound.toCoherent).trans (ih (sound.perform c))

end Runs

section Stages
variable {w w' : World} {a : AttemptId} {s s' : Attempt} {b : Berth} {r : RecordId}

theorem staged_of_idle (idle : ∀ a c, w.running? a c = none) : w.Staged := by
  intro a c r runs
  simp [idle] at runs

theorem Staged.same (staged : w.Staged) (running : ∀ y c, w'.running? y c = w.running? y c)
    (waiting : ∀ y, w'.waiting y = w.waiting y)
    (states : ∀ y c x, w.running? y c = some x → (w'.record x).state = (w.record x).state) :
    w'.Staged := by
  intro y c x runs
  rw [running] at runs
  rw [states y c x runs, waiting]
  exact staged y c x runs

theorem Staged.index {postings : Usage → Usage} {notes : QueueMetrics → QueueMetrics}
    (staged : w.Staged) (turn : Turn w w' a s s' postings notes) (live : s'.live = s.live)
    (undelivered : s'.undelivered = s.undelivered) (idle : ∀ y c, w.running? y c ≠ some r)
    (records : ∀ x, x ≠ r → w'.record x = w.record x) : w'.Staged := by
  refine staged.same (turn.running?_same live) (turn.waiting_same undelivered) fun y c x runs => ?_
  rw [records]
  rintro rfl
  exact idle y c runs

theorem Staged.placed {postings : Usage → Usage} {notes : QueueMetrics → QueueMetrics}
    (staged : w.Staged) (coherent : w.Coherent) (turn : Turn w w' a s s' postings notes)
    (found : s.reservations.get? b = some r) (live : s'.live = s.live)
    (undelivered : s'.undelivered = s.undelivered)
    (records : ∀ x, x ≠ r → w'.record x = w.record x) : w'.Staged :=
  staged.index turn live undelivered
    (fun _ _ => coherent.apart ((turn.reservation?_before b).trans found)) records

theorem Staged.enlists {record} (staged : w.Staged) (coherent : w.Coherent)
    (step : Enlists w w' a s s' b r record) : w'.Staged :=
  staged.index step.toTurn step.live step.undelivered (coherent.unlisted step.fresh).2
    (record_other step.records)

theorem Staged.drops (staged : w.Staged) (coherent : w.Coherent) (step : Drops w w' a s s' b r) :
    w'.Staged :=
  staged.placed coherent step.toTurn step.found step.live step.undelivered
    fun x _ => step.records x

theorem Staged.begins {record} (staged : w.Staged) (coherent : w.Coherent)
    (step : Begins w w' a s s' r record) : w'.Staged := by
  intro y c x runs
  have waits : w'.waiting y = if y = a then w.waiting a ++ [r] else w.waiting y := by
    rw [step.waiting, step.undelivered, step.waiting_before]
  rw [step.running?, step.live, Table.lookup_insert, ← step.running?_before] at runs
  by_cases new : x = r
  · subst new
    have elsewhere := (coherent.unlisted step.fresh).2
    have own : y = a := by grind
    rw [record_own step.records, step.allocated, waits, if_pos own, if_pos (by simp)]
  · have before : w.running? y c = some x := by grind
    have same : x ∈ w'.waiting y ↔ x ∈ w.waiting y := by grind
    rw [record_other step.records x new, staged y c x before]
    simp only [same]

theorem Staged.ends {c partition report ending} (staged : w.Staged) (coherent : w.Coherent)
    (step : Ends w w' a s s' c r partition report ending) : w'.Staged := by
  intro y c' x runs
  have found := (step.running?_before c).trans step.found
  have waits : w'.waiting y =
      if y = a then (w.waiting a).filter fun u => (w.record u).id != c else w.waiting y := by
    rw [step.waiting, step.undelivered, step.waiting_before]
  rw [step.running?, step.live, Table.lookup_erase, ← step.running?_before] at runs
  have before : w.running? y c' = some x := by grind
  have other : x ≠ r := by
    rintro rfl
    obtain ⟨rfl, rfl⟩ := coherent.name_unique before found
    simp at runs
  -- What goes from the queue has the name of the container that ended.
  have same : x ∈ w'.waiting y ↔ x ∈ w.waiting y := by
    rw [waits]
    split
    · rename_i own
      subst own
      have named := (coherent.runs before).2.named
      have apart : c' ≠ c := by
        rintro rfl
        simp at runs
      simp [named, apart]
    · exact .rfl
  rw [record_other step.records x other, staged y c' x before]
  simp only [same]

theorem Staged.relabels {c new} (staged : w.Staged) (step : Relabels w w' a s s' c r new) :
    w'.Staged := by
  refine staged.same (step.running?_same step.live) (step.waiting_same step.undelivered) ?_
  intro y c' x _
  rw [step.records]
  split
  · rename_i same
    rw [same]
  · rfl

theorem Staged.delivers (staged : w.Staged) (coherent : w.Coherent)
    (step : Delivers w w' a s s') : w'.Staged := by
  intro y c x runs
  rw [step.running?_same step.live] at runs
  have stage := staged y c x runs
  have waits : w'.waiting y = if y = a then [] else w.waiting y := by
    rw [step.waiting, step.undelivered]
  rw [step.records, ← step.waiting_before, waits]
  by_cases own : y = a
  · subst own
    by_cases waited : x ∈ w.waiting y <;> simp_all [Record.acquire]
  · have elsewhere : x ∉ w.waiting a := by
      intro waited
      obtain ⟨c', also⟩ := coherent.undelivered waited
      exact own (coherent.name_unique runs also).1
    rw [if_neg elsewhere, if_neg own]
    exact stage

theorem Outcome.staged {c : Call} (outcome : Outcome w c w') (staged : w.Staged)
    (coherent : w.Coherent) : w'.Staged := by
  cases outcome with
  | begins step => exact staged.begins coherent step
  | ends step => exact staged.ends coherent step
  | relabels step => exact staged.relabels step
  | reserves step => exact staged.enlists coherent step.toEnlists
  | displaces _ first second =>
    exact (staged.drops coherent first.toDrops).enlists (coherent.drops first.toDrops)
      second.toEnlists
  | resizes _ step =>
    exact staged.placed coherent step.toTurn step.found step.live step.undelivered
      (record_other step.records)
  | lapses step => exact staged.drops coherent step.toDrops
  | moves step =>
    exact staged.placed coherent step.toTurn step.found step.live step.undelivered
      (record_other step.records)
  | delivers step => exact staged.delivers coherent step
  | notes _ _ step =>
    exact staged.same (step.running?_same step.live) (step.waiting_same step.undelivered)
      fun _ _ x _ => by rw [step.records x]
  | tends _ step =>
    refine staged.same (fun y c => ?_) (fun y => ?_) fun _ _ x _ => by rw [step.records x]
    · simp [running?, step.attempts]
    · simp [World.waiting, step.attempts]

theorem Sound.staged (sound : w.Sound) (staged : w.Staged) (calls : List Call) :
    (w.after calls).Staged := by
  induction calls generalizing w with
  | nil => exact staged
  | cons c calls ih =>
    exact ih (sound.perform c) ((outcome sound c).staged staged sound.toCoherent)

end Stages

section Final
variable {w w' : World} {a : AttemptId} {s s' : Attempt} {b : Berth} {r : RecordId}

theorem Coherent.retired_ends {c partition report ending} (coherent : w.Coherent)
    (step : Ends w w' a s s' c r partition report ending) : w'.Retired r := by
  have found := (step.running?_before c).trans step.found
  refine ⟨(step.knows r).mpr (coherent.runs found).1, ?_, ?_⟩
  · intro y c' runs
    rw [step.running?, step.live, Table.lookup_erase, ← step.running?_before] at runs
    have before : w.running? y c' = some r := by grind
    obtain ⟨rfl, rfl⟩ := coherent.name_unique before found
    simp at runs
  · intro y b' stands
    rw [step.reservation?_same step.reservations] at stands
    exact coherent.apart stands found

theorem Coherent.retired_drops (coherent : w.Coherent) (step : Drops w w' a s s' b r) :
    w'.Retired r := by
  have stood := (step.reservation?_before b).trans step.found
  refine ⟨(step.knows r).mpr (coherent.stands stood).1, ?_, ?_⟩
  · intro y c runs
    exact coherent.apart stood (step.running?_same step.live y c ▸ runs)
  · intro y b' stands
    rw [step.reservation?, step.reservations, Table.lookup_erase, ← step.reservation?_before]
      at stands
    have before : w.reservation? y b' = some r := by grind
    obtain ⟨rfl, rfl⟩ := coherent.berth_unique before stood
    simp at stands

theorem Coherent.retired_completed (coherent : w.Coherent) (staged : w.Staged) (known : w.Knows r)
    (completed : (w.record r).state = .completed) : w.Retired r where
  known := known
  idle y c runs := by
    have stage := staged y c r runs
    rw [completed] at stage
    split at stage <;> simp at stage
  unplaced y b' stands := by
    have state := (coherent.stands stands).2.state
    rw [completed] at state
    simp at state

theorem Retired.final (retired : w.Retired r) (sound : w.Sound) (calls : List Call) :
    (w.after calls).record r = w.record r :=
  (sound.traces calls).retired r retired

theorem Sound.complete_final (sound : w.Sound) {id : ContainerId} {report : ExitReport}
    {ending : Ending} {partition : Partition}
    (answer : w.complete a id report ending partition = (true, w')) (calls : List Call) :
    ∃ r, w.running? a id = some r ∧ w'.record r = (w.record r).finish report ending ∧
      (w'.after calls).record r = w'.record r := by
  have later : w'.Sound := by
    have sound := sound.perform (.complete a id report ending partition)
    rwa [World.perform, answer] at sound
  have succeeded : (w.complete a id report ending partition).1 = true := by rw [answer]
  unfold complete at succeeded
  split at succeeded
  · simp at succeeded
  · rename_i s before
    split at succeeded
    · simp at succeeded
    · rename_i r found
      obtain ⟨s', step⟩ := complete_ends sound.toCoherent report ending partition before found
      simp only [answer] at step
      refine ⟨r, (step.running?_before id).trans step.found, record_own step.records, ?_⟩
      exact (sound.retired_ends step).final later calls

theorem Sound.unreserve_final (sound : w.Sound) {priority : Priority} {n : NodeId}
    (answer : w.unreserve a priority n = (true, w')) (calls : List Call) :
    ∃ r, w.reservation? a ⟨priority, n⟩ = some r ∧ (w'.after calls).record r = w.record r := by
  have later : w'.Sound := by
    have sound := sound.perform (.unreserve a priority n)
    rwa [World.perform, answer] at sound
  have succeeded : (w.unreserve a priority n).1 = true := by rw [answer]
  unfold unreserve at succeeded
  split at succeeded
  · simp at succeeded
  · rename_i s before
    split at succeeded
    · simp at succeeded
    · rename_i r found
      obtain ⟨s', step⟩ := unreserve_lapses sound.toCoherent before found
      simp only [answer] at step
      refine ⟨r, (step.reservation?_before _).trans step.found, ?_⟩
      have final := (sound.retired_drops step.toDrops).final later calls
      exact final.trans (step.records r)

theorem Sound.displace_final (sound : w.Sound) {priority : Priority} {n : NodeId}
    {existing : Option RecordId} {container : Container}
    (answer : w.reserve a priority n existing container = .ok (r, w')) {held : Slot}
    (slot : w.slot? n = some held) (other : held.record ≠ r) (calls : List Call) :
    (w'.after calls).record held.record = w.record held.record := by
  have changed : Outcome w (.reserve a priority n existing container) w' := by
    have outcome := outcome sound (.reserve a priority n existing container)
    rwa [perform_reserved answer] at outcome
  have later : w'.Sound := changed.sound sound
  have seated : w'.reservation? a ⟨priority, n⟩ = some r := by
    rw [← later.agree, (reserve_slots sound.filed answer).2, if_pos rfl]
  have gone : ∀ {x b}, w.reservation? x b = some r → b.node ≠ n := by
    rintro x b stands rfl
    have full := slot.symm.trans (sound.agree.mpr stands)
    exact other (congrArg Slot.record (Option.some.inj full))
  cases changed with
  | reserves step =>
    have vacant := step.vacant
    simp [slot?, step.offered, vacant] at slot
  | displaces here first second =>
    have stood := (first.reservation?_before _).trans first.found
    have full := slot.symm.trans (here ▸ sound.agree.mpr stood)
    obtain rfl := Option.some.inj full
    have retired := sound.retired_drops first.toDrops
    have traces := traces_enlists second.toEnlists
    have final := (retired.traces traces).final later calls
    exact final.trans ((traces.retired _ retired).trans (first.records _))
  | resizes _ step =>
    have stands := (step.reservation?_same step.reservations _ _).symm.trans seated
    exact absurd rfl (gone stands)
  | notes _ _ step =>
    have stands := (step.reservation?_same step.reservations _ _).symm.trans seated
    exact absurd rfl (gone stands)
  | tends _ step =>
    refine absurd rfl (gone (x := a) (b := ⟨priority, n⟩) ?_)
    rw [← seated]
    simp [reservation?, step.attempts]

end Final

section Past
variable {v w : World} {r : RecordId}

structure Unreserved (w : World) (r : RecordId) : Prop where
  state : (w.record r).state ≠ .reserved
  unplaced : ∀ a b, w.reservation? a b ≠ some r

theorem Unreserved.traces (unreserved : v.Unreserved r) (known : v.Knows r) (traces : Traces v w) :
    w.Unreserved r where
  state := traces.unreserved r known unreserved.unplaced unreserved.state
  unplaced := traces.unplaced known unreserved.unplaced

theorem Coherent.unreserved_running (coherent : w.Coherent) (staged : w.Staged) {a c}
    (runs : w.running? a c = some r) : w.Unreserved r where
  state := by
    rw [staged a c r runs]
    split <;> simp
  unplaced _ _ stands := coherent.apart stands runs

theorem Coherent.unreserved_unknown (coherent : w.Coherent) (unknown : ¬ w.Knows r) :
    w.Unreserved r where
  state := by
    have absent : w.records[r.index]? = none := Array.getElem?_eq_none (Nat.le_of_not_lt unknown)
    have blank : w.record r = default := by
      rw [record, Array.getD_eq_getD_getElem?, absent, Option.getD_none]
    rw [blank]
    decide
  unplaced := (coherent.unlisted unknown).1

theorem Sound.unreserved_beside (sound : v.Sound) (staged : v.Staged) (calls : List Call) {a c}
    (runs : v.running? a c = some r ∨ (v.after calls).running? a c = some r) :
    v.Unreserved r ∧ (v.after calls).Unreserved r := by
  have traces := sound.traces calls
  have forward : v.running? a c = some r → v.Unreserved r ∧ (v.after calls).Unreserved r := by
    intro runs
    have unreserved := sound.unreserved_running staged runs
    exact ⟨unreserved, unreserved.traces (sound.runs runs).1 traces⟩
  rcases runs with before | later
  · exact forward before
  · by_cases known : v.Knows r
    · exact forward (traces.running a c r known later)
    · exact ⟨sound.unreserved_unknown known,
        (sound.after calls).unreserved_running (sound.staged staged calls) later⟩

end Past

/-- In every state of a run a live record is allocated while its container waits for a snapshot and
    acquired after that, a record in an index is reserved, and one that is live is reserved at no
    other moment, earlier or later. What a completion leaves, with the report and the ending that it
    was given, is final, and so is any completed record, one that was unreserved and one that lost
    its slot: no later call changes it, whatever its arguments are. -/
theorem records_live_once {start : World} (opening : start.Opening) (past since : List Call) :
    let w := start.after past
    let later := w.after since
    (∀ a c r, w.running? a c = some r →
      (w.record r).state = if r ∈ w.waiting a then .allocated else .acquired) ∧
    (∀ a b r, w.reservation? a b = some r → (w.record r).state = .reserved) ∧
    (∀ a c r, w.running? a c = some r ∨ later.running? a c = some r →
      w.Unreserved r ∧ later.Unreserved r) ∧
    (∀ r, w.Knows r → (w.record r).state = .completed → later.record r = w.record r) ∧
    (∀ a id report ending partition w', w.complete a id report ending partition = (true, w') →
      ∃ r, w.running? a id = some r ∧ w'.record r = (w.record r).finish report ending ∧
        (w'.record r).state = .completed ∧ (w'.record r).completion = some (report, ending) ∧
        (w'.after since).record r = w'.record r) ∧
    (∀ a priority n w', w.unreserve a priority n = (true, w') →
      ∃ r, w.reservation? a ⟨priority, n⟩ = some r ∧ (w'.after since).record r = w.record r) ∧
    ∀ a priority n existing container r w' held,
      w.reserve a priority n existing container = .ok (r, w') → w.slot? n = some held →
        held.record ≠ r → (w'.after since).record held.record = w.record held.record := by
  intro w later
  have sound : w.Sound := opening.sound.after past
  have idle : ∀ a c, start.running? a c = none := by
    intro a c
    cases found : start.attempts.get? a with
    | none => simp [running?, found]
    | some s => simp [running?, found, (opening.attempts found).2.1.live]
  have staged : w.Staged := opening.sound.staged (staged_of_idle idle) past
  refine ⟨staged, ?_, ?_, ?_, ?_, ?_, ?_⟩
  · intro a b r stands
    exact (sound.stands stands).2.state
  · intro a c r runs
    exact sound.unreserved_beside staged since runs
  · intro r known completed
    exact (sound.retired_completed staged known completed).final sound since
  · intro a id report ending partition w' answer
    obtain ⟨r, runs, finished, final⟩ := sound.complete_final answer since
    exact ⟨r, runs, finished, finished ▸ rfl, finished ▸ rfl, final⟩
  · intro a priority n w' answer
    exact sound.unreserve_final answer since
  · intro a priority n existing container r w' held answer slot other
    exact sound.displace_final answer slot other since

/-- The handle of a container that was killed is passed to a reservation and to a move. -/
theorem records_live_once_sample :
    let past : List Call := [
      .request ⟨"a"⟩ [⟨⟨1⟩, anyPlace, ⟨512, 1⟩, 2, true, ""⟩],
      .allocate ⟨"a"⟩ .offSwitch ⟨"n2"⟩ ⟨1⟩ ⟨⟨"c1"⟩, ⟨"n2"⟩, ⟨512, 1⟩, ⟨1⟩, false, none⟩]
    let since : List Call := [
      .reserve ⟨"a"⟩ ⟨1⟩ ⟨"n1"⟩ (some ⟨0⟩) ⟨⟨"c1"⟩, ⟨"n1"⟩, ⟨512, 1⟩, ⟨1⟩, false, none⟩,
      .move ⟨"a"⟩ ⟨0⟩ ⟨"n1"⟩ ⟨"n2"⟩,
      .complete ⟨"a"⟩ ⟨"c1"⟩ ⟨0, ""⟩ .finished "",
      .snapshot ⟨"a"⟩ .zero]
    let w := sample.after past
    let killed := (w.complete ⟨"a"⟩ ⟨"c1"⟩ ⟨137, "killed"⟩ .killed "").2
    (w.record ⟨0⟩).state = .allocated ∧ ((killed.after since).record ⟨0⟩).state = .completed ∧
      ((killed.after since).record ⟨0⟩).completion = some (⟨137, "killed"⟩, .killed) := by
  intro past since w killed
  obtain ⟨staged, _, _, _, ended, _⟩ := records_live_once sample_opening past since
  have runs : w.running? ⟨"a"⟩ ⟨"c1"⟩ = some ⟨0⟩ := by decide
  have waits : (⟨0⟩ : RecordId) ∈ w.waiting ⟨"a"⟩ := by decide
  have answer : w.complete ⟨"a"⟩ ⟨"c1"⟩ ⟨137, "killed"⟩ .killed "" = (true, killed) :=
    Prod.ext (by decide) rfl
  refine ⟨(staged _ _ _ runs).trans (if_pos waits), ?_⟩
  obtain ⟨r, found, _, completed, ending, final⟩ := ended _ _ _ _ _ _ answer
  obtain rfl := Option.some.inj (runs.symm.trans found)
  rw [final]
  exact ⟨completed, ending⟩

end ClusterLedger.World
