import ClusterLedger.Proofs.Step
/- Slots of nodes and indices of attempts tell the same reservations, and every record that is
   listed somewhere fits the place where it is listed. -/
namespace ClusterLedger.World

/-- Records fit the places where attempts list them. -/
structure Coherent (w : World) : Prop where
  attemptNamed : ∀ {a s}, w.attempts.get? a = some s → s.id = a
  stands : ∀ {a b r}, w.reservation? a b = some r → w.Knows r ∧ (w.record r).StandsAt a b
  runs : ∀ {a c r}, w.running? a c = some r → w.Knows r ∧ (w.record r).RunsAs a c
  undelivered : ∀ {a r}, r ∈ w.waiting a → ∃ c, w.running? a c = some r
  queued : ∀ {a s}, w.attempts.get? a = some s → (w.queues.get? s.queue).isSome

/-- What holds of the books between any two calls. -/
structure Sound (w : World) : Prop extends Coherent w where
  nodeNamed : ∀ {n node}, w.nodes.get? n = some node → node.id = n
  agree : ∀ {n a p r}, w.slot? n = some ⟨a, p, r⟩ ↔ w.reservation? a ⟨p, n⟩ = some r

section Turn
variable {w w' : World} {a : AttemptId} {s s' : Attempt} {postings : Usage → Usage}
  {notes : QueueMetrics → QueueMetrics}

theorem Turn.reservation? (turn : Turn w w' a s s' postings notes) (x : AttemptId) (b : Berth) :
    w'.reservation? x b = if x = a then s'.reservations.get? b else w.reservation? x b := by
  simp only [World.reservation?, turn.attempts]
  split <;> rfl

theorem Turn.running? (turn : Turn w w' a s s' postings notes) (x : AttemptId) (c : ContainerId) :
    w'.running? x c = if x = a then s'.live.get? c else w.running? x c := by
  simp only [World.running?, turn.attempts]
  split <;> rfl

theorem Turn.waiting (turn : Turn w w' a s s' postings notes) (x : AttemptId) :
    w'.waiting x = if x = a then s'.undelivered else w.waiting x := by
  simp only [World.waiting, turn.attempts]
  split <;> rfl

theorem Turn.attemptNamed (turn : Turn w w' a s s' postings notes) (coherent : w.Coherent) {x t}
    (found : w'.attempts.get? x = some t) : t.id = x := by
  rw [turn.attempts] at found
  split at found
  · rename_i same
    obtain rfl := Option.some.inj found
    rw [turn.named, same]
    exact coherent.attemptNamed turn.before
  · exact coherent.attemptNamed found

theorem Turn.queued (turn : Turn w w' a s s' postings notes) (coherent : w.Coherent) {x t}
    (found : w'.attempts.get? x = some t) : (w'.queues.get? t.queue).isSome := by
  have old : (w.queues.get? t.queue).isSome := by
    rw [turn.attempts] at found
    split at found
    · obtain rfl := Option.some.inj found
      rw [turn.queue]
      exact coherent.queued turn.before
    · exact coherent.queued found
  rw [turn.queues]
  split
  · rename_i same
    simpa [same] using old
  · exact old

theorem Turn.reservation?_before (turn : Turn w w' a s s' postings notes) (b : Berth) :
    w.reservation? a b = s.reservations.get? b := by
  simp [World.reservation?, turn.before]

theorem Turn.running?_before (turn : Turn w w' a s s' postings notes) (c : ContainerId) :
    w.running? a c = s.live.get? c := by
  simp [World.running?, turn.before]

theorem Turn.waiting_before (turn : Turn w w' a s s' postings notes) :
    w.waiting a = s.undelivered := by
  simp [World.waiting, turn.before]

theorem Turn.reservation?_same (turn : Turn w w' a s s' postings notes)
    (same : s'.reservations = s.reservations) (x : AttemptId) (b : Berth) :
    w'.reservation? x b = w.reservation? x b := by
  rw [turn.reservation?, same, ← turn.reservation?_before]
  split
  · simp_all
  · rfl

theorem Turn.running?_same (turn : Turn w w' a s s' postings notes) (same : s'.live = s.live)
    (x : AttemptId) (c : ContainerId) : w'.running? x c = w.running? x c := by
  rw [turn.running?, same, ← turn.running?_before]
  split
  · simp_all
  · rfl

theorem Turn.waiting_same (turn : Turn w w' a s s' postings notes)
    (same : s'.undelivered = s.undelivered) (x : AttemptId) : w'.waiting x = w.waiting x := by
  rw [turn.waiting, same, ← turn.waiting_before]
  split
  · simp_all
  · rfl

end Turn

variable {w w' : World} {a : AttemptId} {s s' : Attempt}

theorem record_own {r : RecordId} {record : Record}
    (records : ∀ x, w'.record x = if x = r then record else w.record x) : w'.record r = record :=
  (records r).trans (if_pos rfl)

theorem record_other {r : RecordId} {record : Record}
    (records : ∀ x, w'.record x = if x = r then record else w.record x) (x : RecordId)
    (ne : x ≠ r) : w'.record x = w.record x :=
  (records x).trans (if_neg ne)

theorem slot?_same (same : w'.nodes = w.nodes) (n : NodeId) : w'.slot? n = w.slot? n := by
  simp [slot?, same]

/-- A record that stands at a berth is not live: one was reserved, the other never was. -/
theorem Coherent.apart (coherent : w.Coherent) {x y b c r} (stands : w.reservation? x b = some r) :
    w.running? y c ≠ some r := by
  intro runs
  have placed := (coherent.stands stands).2.priority
  have unplaced := (coherent.runs runs).2.unplaced
  simp [unplaced] at placed

theorem Coherent.berth_unique (coherent : w.Coherent) {x y b b' r} (one : w.reservation? x b = some r)
    (other : w.reservation? y b' = some r) : x = y ∧ b = b' := by
  have first := (coherent.stands one).2
  have second := (coherent.stands other).2
  have priority : b.priority = b'.priority := by simpa [first.priority] using second.priority
  have node : b.node = b'.node := first.node.symm.trans second.node
  refine ⟨first.owner.symm.trans second.owner, ?_⟩
  cases b; cases b'
  simp_all

theorem Coherent.name_unique (coherent : w.Coherent) {x y c c' r} (one : w.running? x c = some r)
    (other : w.running? y c' = some r) : x = y ∧ c = c' := by
  have first := (coherent.runs one).2
  have second := (coherent.runs other).2
  exact ⟨first.owner.symm.trans second.owner, first.named.symm.trans second.named⟩

theorem Coherent.stands_beside {c r} (coherent : w.Coherent) (live : w.running? a c = some r)
    (knows : ∀ x, w'.Knows x ↔ w.Knows x) (records : ∀ x, x ≠ r → w'.record x = w.record x)
    {x b y} (stands : w.reservation? x b = some y) :
    w'.Knows y ∧ (w'.record y).StandsAt x b := by
  have ne : y ≠ r := by
    rintro rfl
    exact coherent.apart stands live
  rw [knows, records y ne]
  exact coherent.stands stands

theorem Coherent.waits_same (coherent : w.Coherent) (waiting : ∀ x, w'.waiting x = w.waiting x)
    (running : ∀ x c, w'.running? x c = w.running? x c) {x y} (member : y ∈ w'.waiting x) :
    ∃ c, w'.running? x c = some y := by
  obtain ⟨c, runs⟩ := coherent.undelivered (waiting x ▸ member)
  exact ⟨c, (running x c).trans runs⟩

theorem Coherent.begins {r record} (coherent : w.Coherent) (step : Begins w w' a s s' r record) :
    w'.Coherent := by
  have reserved := step.reservation?_same step.reservations
  have running : ∀ x c, w'.running? x c =
      if x = a ∧ c = record.id then some r else w.running? x c := by
    intro x c
    rw [step.running?, step.live, Table.lookup_insert, ← step.running?_before]
    grind
  have waiting : ∀ x, w'.waiting x = if x = a then w.waiting a ++ [r] else w.waiting x := by
    intro x
    rw [step.waiting, step.undelivered, step.waiting_before]
  -- The name is free, so the new container hides no other one.
  have free := (step.running?_before record.id).trans step.idFree
  have fresh := step.fresh
  have knows := step.knows
  have records := step.records
  refine ⟨step.attemptNamed coherent, ?_, ?_, ?_, step.queued coherent⟩
  · intro x b y found
    have old := @coherent.stands x b y
    grind
  · intro x c y found
    have old := @coherent.runs x c y
    have new := step.runs
    grind
  · intro x y member
    have old := @coherent.undelivered x y
    rw [waiting] at member
    grind

theorem Coherent.ends {c r partition report ending} (coherent : w.Coherent)
    (step : Ends w w' a s s' c r partition report ending) : w'.Coherent := by
  have reserved := step.reservation?_same step.reservations
  have running : ∀ x c', w'.running? x c' = if x = a ∧ c' = c then none else w.running? x c' := by
    intro x c'
    rw [step.running?, step.live, Table.lookup_erase, ← step.running?_before]
    grind
  have waiting : ∀ x, w'.waiting x =
      if x = a then (w.waiting a).filter fun u => (w.record u).id != c else w.waiting x := by
    intro x
    rw [step.waiting, step.undelivered, step.waiting_before]
  have found := (step.running?_before c).trans step.found
  have others := record_other step.records
  refine ⟨step.attemptNamed coherent, ?_, ?_, ?_, step.queued coherent⟩
  · intro x b y stands
    exact coherent.stands_beside found step.knows others (reserved x b ▸ stands)
  · intro x c' y runs
    rw [running] at runs
    split at runs
    · simp at runs
    · rename_i elsewhere
      have ne : y ≠ r := by
        rintro rfl
        exact elsewhere (coherent.name_unique runs found)
      rw [step.knows, others y ne]
      exact coherent.runs runs
  · intro x y member
    rw [waiting] at member
    split at member
    · rename_i same
      obtain ⟨member, other⟩ := List.mem_filter.mp member
      obtain ⟨c', runs⟩ := coherent.undelivered member
      have named := (coherent.runs runs).2.named
      refine ⟨c', ?_⟩
      rw [running, same, if_neg (by simp_all), runs]
    · rename_i apart
      obtain ⟨c', runs⟩ := coherent.undelivered member
      exact ⟨c', by rw [running, if_neg (by simp [apart]), runs]⟩

theorem Coherent.relabels {c r new} (coherent : w.Coherent)
    (step : Relabels w w' a s s' c r new) : w'.Coherent := by
  have reserved := step.reservation?_same step.reservations
  have running := step.running?_same step.live
  have found := (step.running?_before c).trans step.found
  have others := record_other step.records
  refine ⟨step.attemptNamed coherent, ?_, ?_, ?_, step.queued coherent⟩
  · intro x b y stands
    exact coherent.stands_beside found step.knows others (reserved x b ▸ stands)
  · intro x c' y runs
    obtain ⟨known, fits⟩ := coherent.runs (running x c' ▸ runs)
    refine ⟨(step.knows y).mpr known, ?_⟩
    rw [step.records]
    split
    · rename_i same
      exact ⟨same ▸ fits.owner, same ▸ fits.named, same ▸ fits.unplaced⟩
    · exact fits
  · intro x y member
    exact coherent.waits_same (step.waiting_same step.undelivered) running member

theorem Coherent.seats {b : Berth} {r : RecordId} {postings : Usage → Usage}
    {notes : QueueMetrics → QueueMetrics} (coherent : w.Coherent)
    (turn : Turn w w' a s s' postings notes) (live : s'.live = s.live)
    (undelivered : s'.undelivered = s.undelivered)
    (index : ∀ b' y, s'.reservations.get? b' = some y →
      b' = b ∧ y = r ∨ s.reservations.get? b' = some y ∧ y ≠ r)
    (own : ∀ x b', w.reservation? x b' = some r → x = a) (idle : ∀ x c, w.running? x c ≠ some r)
    (knows : ∀ x, w'.Knows x ↔ w.Knows x ∨ x = r)
    (records : ∀ x, x ≠ r → w'.record x = w.record x) (stands : (w'.record r).StandsAt a b) :
    w'.Coherent := by
  have running := turn.running?_same live
  have beside : ∀ x b' y, y ≠ r → w.reservation? x b' = some y →
      w'.Knows y ∧ (w'.record y).StandsAt x b' := by
    intro x b' y ne found
    rw [knows, records y ne]
    obtain ⟨known, fits⟩ := coherent.stands found
    exact ⟨.inl known, fits⟩
  refine ⟨turn.attemptNamed coherent, ?_, ?_, ?_, turn.queued coherent⟩
  · intro x b' y found
    rw [turn.reservation?] at found
    split at found
    · rename_i same
      subst same
      rcases index b' y found with ⟨rfl, rfl⟩ | ⟨old, ne⟩
      · exact ⟨(knows y).mpr (.inr rfl), stands⟩
      · exact beside x b' y ne ((turn.reservation?_before b').trans old)
    · rename_i apart
      refine beside x b' y ?_ found
      rintro rfl
      exact apart (own x b' found)
  · intro x c y runs
    rw [running] at runs
    have ne : y ≠ r := by
      rintro rfl
      exact idle x c runs
    rw [knows, records y ne]
    obtain ⟨known, fits⟩ := coherent.runs runs
    exact ⟨.inl known, fits⟩
  · intro x y member
    exact coherent.waits_same (turn.waiting_same undelivered) running member

theorem Coherent.unlisted {r : RecordId} (coherent : w.Coherent) (fresh : ¬ w.Knows r) :
    (∀ x b, w.reservation? x b ≠ some r) ∧ ∀ x c, w.running? x c ≠ some r :=
  ⟨fun _ _ stands => fresh (coherent.stands stands).1, fun _ _ runs => fresh (coherent.runs runs).1⟩

theorem Coherent.enlists {b r record} (coherent : w.Coherent)
    (step : Enlists w w' a s s' b r record) : w'.Coherent := by
  obtain ⟨unreserved, idle⟩ := coherent.unlisted step.fresh
  refine coherent.seats step.toTurn step.live step.undelivered ?_
    (fun x b' stands => absurd stands (unreserved x b')) idle step.knows (record_other step.records)
    (record_own step.records ▸ step.stands)
  intro b' y found
  rw [step.reservations, Table.lookup_insert] at found
  split at found
  · rename_i same
    exact .inl ⟨same, (Option.some.inj found).symm⟩
  · refine .inr ⟨found, ?_⟩
    rintro rfl
    exact unreserved a b' ((step.reservation?_before b').trans found)

theorem Coherent.drops {b r} (coherent : w.Coherent) (step : Drops w w' a s s' b r) :
    w'.Coherent := by
  have reserved : ∀ x b', w'.reservation? x b' =
      if x = a ∧ b' = b then none else w.reservation? x b' := by
    intro x b'
    rw [step.reservation?, step.reservations, Table.lookup_erase, ← step.reservation?_before]
    grind
  have running := step.running?_same step.live
  refine ⟨step.attemptNamed coherent, ?_, ?_, ?_, step.queued coherent⟩
  · intro x b' y stands
    have old := @coherent.stands x b' y
    have knows := step.knows
    have records := step.records
    grind
  · intro x c y runs
    rw [step.knows, step.records]
    exact coherent.runs (running x c ▸ runs)
  · intro x y member
    exact coherent.waits_same (step.waiting_same step.undelivered) running member

theorem Coherent.restands {b r} {postings : Usage → Usage} {notes : QueueMetrics → QueueMetrics}
    (coherent : w.Coherent) (turn : Turn w w' a s s' postings notes)
    (found : s.reservations.get? b = some r) (live : s'.live = s.live)
    (undelivered : s'.undelivered = s.undelivered) (reservations : s'.reservations = s.reservations)
    (knows : ∀ x, w'.Knows x ↔ w.Knows x) {record : Record}
    (records : ∀ x, w'.record x = if x = r then record else w.record x)
    (stands : record.StandsAt a b) : w'.Coherent := by
  have found := (turn.reservation?_before b).trans found
  have known := (coherent.stands found).1
  refine coherent.seats (b := b) turn live undelivered ?_
    (fun x b' stands => (coherent.berth_unique stands found).1) (fun x c => coherent.apart found)
    (fun x => ?_) (record_other records) (record_own records ▸ stands)
  · intro b' y at_
    rw [reservations] at at_
    by_cases same : y = r
    · subst same
      exact .inl ⟨(coherent.berth_unique ((turn.reservation?_before b').trans at_) found).2, rfl⟩
    · exact .inr ⟨at_, same⟩
  · rw [knows]
    refine ⟨.inl, fun either => either.elim id ?_⟩
    rintro rfl
    exact known

theorem Coherent.remakes {b r partition resource} (coherent : w.Coherent)
    (step : Remakes w w' a s s' b r partition resource) : w'.Coherent := by
  have owner := (coherent.stands ((step.reservation?_before b).trans step.found)).2.owner
  exact coherent.restands step.toTurn step.found step.live step.undelivered step.reservations
    step.knows step.records ⟨owner, rfl, rfl, rfl⟩

theorem Coherent.reseats {b target r} (coherent : w.Coherent)
    (step : Reseats w w' a s s' b target r) : w'.Coherent := by
  have found := (step.reservation?_before b).trans step.found
  obtain ⟨known, fits⟩ := coherent.stands found
  refine coherent.seats (b := ⟨b.priority, target⟩) step.toTurn step.live step.undelivered ?_
    (fun x b' stands => (coherent.berth_unique stands found).1)
    (fun x c => coherent.apart found) (fun x => ?_) (record_other step.records) ?_
  · intro b' y at_
    rw [step.reservations, Table.lookup_insert, Table.lookup_erase] at at_
    split at at_
    · rename_i same
      exact .inl ⟨same, (Option.some.inj at_).symm⟩
    · split at at_
      · simp at at_
      · rename_i elsewhere
        refine .inr ⟨at_, ?_⟩
        rintro rfl
        exact elsewhere (coherent.berth_unique ((step.reservation?_before b').trans at_) found).2
  · rw [step.knows]
    refine ⟨.inl, fun either => either.elim id ?_⟩
    rintro rfl
    exact known
  · rw [record_own step.records]
    exact ⟨fits.owner, rfl, rfl, rfl⟩

theorem Coherent.delivers (coherent : w.Coherent) (step : Delivers w w' a s s') : w'.Coherent := by
  have reserved := step.reservation?_same step.reservations
  have running := step.running?_same step.live
  have waiting : ∀ x, w'.waiting x = if x = a then [] else w.waiting x := by
    intro x
    rw [step.waiting, step.undelivered]
  have records := step.records
  rw [← step.waiting_before] at records
  refine ⟨step.attemptNamed coherent, ?_, ?_, ?_, step.queued coherent⟩
  · intro x b' y stands
    rw [reserved] at stands
    -- What waits is live, so no reservation is acquired.
    have kept : y ∉ w.waiting a := by
      intro member
      obtain ⟨c, runs⟩ := coherent.undelivered member
      exact coherent.apart stands runs
    rw [step.knows, records, if_neg kept]
    exact coherent.stands stands
  · intro x c y runs
    obtain ⟨known, fits⟩ := coherent.runs (running x c ▸ runs)
    refine ⟨(step.knows y).mpr known, ?_⟩
    rw [records]
    split
    · unfold Record.acquire
      split
      · exact ⟨fits.owner, fits.named, fits.unplaced⟩
      · exact fits
    · exact fits
  · intro x y member
    have old := @coherent.undelivered x y
    rw [waiting] at member
    grind

theorem Coherent.notes (coherent : w.Coherent) (step : Notes w w' a s s') : w'.Coherent := by
  have reserved := step.reservation?_same step.reservations
  have running := step.running?_same step.live
  refine ⟨step.attemptNamed coherent, ?_, ?_, ?_, step.queued coherent⟩
  · intro x b' y stands
    rw [step.knows, step.records]
    exact coherent.stands (reserved x b' ▸ stands)
  · intro x c y runs
    rw [step.knows, step.records]
    exact coherent.runs (running x c ▸ runs)
  · intro x y member
    exact coherent.waits_same (step.waiting_same step.undelivered) running member

theorem Coherent.beside (coherent : w.Coherent) (attempts : w'.attempts = w.attempts)
    (queues : w'.queues = w.queues) (knows : ∀ x, w'.Knows x ↔ w.Knows x)
    (records : ∀ x, w'.record x = w.record x) : w'.Coherent := by
  have reserved : ∀ x b, w'.reservation? x b = w.reservation? x b := by
    intro x b
    simp [reservation?, attempts]
  have running : ∀ x c, w'.running? x c = w.running? x c := by
    intro x c
    simp [running?, attempts]
  have waiting : ∀ x, w'.waiting x = w.waiting x := by
    intro x
    simp [World.waiting, attempts]
  refine ⟨attempts ▸ coherent.attemptNamed, ?_, ?_, ?_, ?_⟩
  · intro x b' y stands
    rw [knows, records]
    exact coherent.stands (reserved x b' ▸ stands)
  · intro x c y runs
    rw [knows, records]
    exact coherent.runs (running x c ▸ runs)
  · intro x y member
    exact coherent.waits_same waiting running member
  · intro x t found
    rw [queues]
    exact coherent.queued (attempts ▸ found)

theorem Coherent.tends (coherent : w.Coherent) (step : Tends w w') : w'.Coherent :=
  coherent.beside step.attempts step.queues step.knows step.records

theorem Sound.kept (sound : w.Sound) (coherent : w'.Coherent) (nodes : w'.nodes = w.nodes)
    (reserved : ∀ x b, w'.reservation? x b = w.reservation? x b) : w'.Sound where
  toCoherent := coherent
  nodeNamed := nodes ▸ sound.nodeNamed
  agree := by
    intro n x p y
    rw [slot?_same nodes, reserved, sound.agree]

theorem Sound.begins {r record} (sound : w.Sound) (step : Begins w w' a s s' r record) :
    w'.Sound :=
  sound.kept (sound.toCoherent.begins step) step.nodes (step.reservation?_same step.reservations)

theorem Sound.ends {c r partition report ending} (sound : w.Sound)
    (step : Ends w w' a s s' c r partition report ending) : w'.Sound :=
  sound.kept (sound.toCoherent.ends step) step.nodes (step.reservation?_same step.reservations)

theorem Sound.relabels {c r new} (sound : w.Sound) (step : Relabels w w' a s s' c r new) :
    w'.Sound :=
  sound.kept (sound.toCoherent.relabels step) step.nodes
    (step.reservation?_same step.reservations)

theorem slot?_set {n : NodeId} {node : Node} (set : ∀ m, w'.nodes.get? m =
    if m = n then some node else w.nodes.get? m) (m : NodeId) :
    w'.slot? m = if m = n then node.slot else w.slot? m := by
  simp only [slot?, set]
  split <;> rfl

theorem Sound.reserves {b node r record} (sound : w.Sound)
    (step : Reserves w w' a s s' b node r record) : w'.Sound := by
  have slots := slot?_set step.nodes
  have reserved : ∀ x b', w'.reservation? x b' =
      if x = a ∧ b' = b then some r else w.reservation? x b' := by
    intro x b'
    rw [step.reservation?, step.reservations, Table.lookup_insert, ← step.reservation?_before]
    grind
  -- The slot was vacant, so no attempt's index has the node at any priority.
  have vacant : w.slot? b.node = none := by
    simp [slot?, step.offered, step.vacant]
  refine ⟨sound.toCoherent.enlists step.toEnlists, ?_, ?_⟩
  · intro n node' found
    have old := @sound.nodeNamed
    have offered := step.offered
    rw [step.nodes] at found
    grind
  · intro n x p y
    obtain ⟨priority, node⟩ := b
    rw [slots, reserved]
    have old := @sound.agree n x p y
    grind

theorem Sound.lapses {b r} (sound : w.Sound) (step : Lapses w w' a s s' b r) : w'.Sound := by
  have reserved : ∀ x b', w'.reservation? x b' =
      if x = a ∧ b' = b then none else w.reservation? x b' := by
    intro x b'
    rw [step.reservation?, step.reservations, Table.lookup_erase, ← step.reservation?_before]
    grind
  have found := (step.reservation?_before b).trans step.found
  -- The slot holds this very record, so emptying it "if it holds the record" does empty it.
  have held : w.slot? b.node = some ⟨a, b.priority, r⟩ := sound.agree.mpr found
  have slots : ∀ n, w'.slot? n = if n = b.node then none else w.slot? n := by
    intro n
    simp only [slot?, step.nodes] at held ⊢
    obtain ⟨node, at_, slot⟩ := Option.bind_eq_some_iff.mp held
    split
    · simp [at_, Node.vacate, Node.heldBy, slot]
    · rfl
  refine ⟨sound.toCoherent.drops step.toDrops, ?_, ?_⟩
  · intro n node' found
    rw [step.nodes] at found
    split at found
    · rename_i same
      obtain ⟨node, at_, rfl⟩ := Option.map_eq_some_iff.mp found
      have named := sound.nodeNamed at_
      unfold Node.vacate
      split <;> simp_all
    · exact sound.nodeNamed found
  · intro n x p y
    obtain ⟨priority, node⟩ := b
    rw [slots, reserved]
    have old := @sound.agree n x p y
    grind

theorem Sound.resizes {b r partition resource} (sound : w.Sound)
    (step : Resizes w w' a s s' b r partition resource) : w'.Sound :=
  sound.kept (sound.toCoherent.remakes step.toRemakes) step.nodes
    (step.reservation?_same step.reservations)

theorem Sound.moves {b target r} (sound : w.Sound) (step : Moves w w' a s s' b target r) :
    w'.Sound := by
  have slots := step.slots
  have reserved : ∀ x b', w'.reservation? x b' =
      if x = a ∧ b' = ⟨b.priority, target⟩ then some r
      else if x = a ∧ b' = b then none else w.reservation? x b' := by
    intro x b'
    rw [step.reservation?, step.reservations, Table.lookup_insert, Table.lookup_erase,
      ← step.reservation?_before]
    grind
  have found := (step.reservation?_before b).trans step.found
  have vacant := step.vacant
  refine ⟨sound.toCoherent.reseats step.toReseats, step.filed _ _, ?_⟩
  intro n x p y
  obtain ⟨priority, source⟩ := b
  rw [slots, reserved]
  have old := @sound.agree n x p y
  have held := (sound.agree (n := source)).mpr found
  grind

theorem Sound.delivers (sound : w.Sound) (step : Delivers w w' a s s') : w'.Sound :=
  sound.kept (sound.toCoherent.delivers step) step.nodes
    (step.reservation?_same step.reservations)

theorem Sound.notes (sound : w.Sound) (step : Notes w w' a s s') : w'.Sound :=
  sound.kept (sound.toCoherent.notes step) step.nodes (step.reservation?_same step.reservations)

theorem Sound.tends (sound : w.Sound) (step : Tends w w') : w'.Sound where
  toCoherent := sound.toCoherent.tends step
  nodeNamed := step.filed (@sound.nodeNamed) _ _
  agree := by
    intro n x p y
    rw [step.slots, sound.agree]
    simp [reservation?, step.attempts]

end ClusterLedger.World
