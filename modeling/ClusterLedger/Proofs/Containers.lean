import ClusterLedger.Proofs.Agreement
/- Containers that begin, end and are relabelled or handed over: each operation, where it does
   anything, is one change of the books. -/
namespace ClusterLedger.World
variable {w : World} {a : AttemptId} {s : Attempt}

theorem allocate_made (coherent : w.Coherent) (locality : Locality) {n : NodeId} {priority : Priority}
    {container : Container} {node : Node} (before : w.attempts.get? a = some s)
    (offered : w.nodes.get? n = some node) (may : w.mayAllocate s priority container.id = true) :
    ∃ s' r record, Begins w (w.allocate a locality n priority container).2 a s s' r record ∧
      (w.allocate a locality n priority container).1 = some r ∧ record.container = container ∧
      record.partition = node.partition ∧ record.node = container.node := by
  have named := coherent.attemptNamed before
  simp only [allocate, before, offered, may, ↓reduceIte]
  simp only [mayAllocate, Attempt.isLive, Table.contains, Bool.and_eq_true, Bool.not_eq_true',
    Option.isSome_eq_false_iff, Option.isNone_iff_eq_none] at may
  obtain ⟨⟨_, idFree⟩, unreserved⟩ := may
  obtain ⟨requests, demand⟩ := s.demand.consume priority (locality.places node.id node.rack)
  generalize made :
    ({ Record.make container s.id s.user node.partition with requests } : Record).start = record
  have copy : record.container = container ∧ record.partition = node.partition ∧
      record.node = container.node := made ▸ ⟨rfl, rfl, rfl⟩
  have same : record.id = container.id := made ▸ rfl
  rw [← same] at idFree unreserved
  have runs : record.RunsAs a record.id := made ▸ ⟨named, rfl, rfl⟩
  have allocated : record.state = .allocated := made ▸ rfl
  have fresh : ¬ w.Knows (w.addRecord record).1 := by simp [Knows, addRecord]
  have live := (((turn_refl before).addRecord record).updateAttempt
    (f := fun s => { s.accrue w.clock with
      live := s.live.insert container.id (w.addRecord record).1
      undelivered := s.undelivered ++ [(w.addRecord record).1], demand }) rfl rfl rfl).increase
        named .used node.partition container.resource
  have knows := fun x => addRecord_knows w x record
  have records := fun x => addRecord_record w x record
  split
  · rename_i master
    have turn := (live.increase named .amUsed node.partition container.resource).updateAttempt
      (f := fun s => { s with amAllocated := true, launch := s.launch.advance .assigned "" })
      rfl rfl rfl
    refine ⟨_, _, record, ⟨turn.posted fun u => ?_, idFree, unreserved, runs,
      allocated, by rw [same], rfl, rfl, rfl, fresh, knows, records⟩, rfl, copy⟩
    subst made
    exact (if_pos master).symm
  · rename_i worker
    refine ⟨_, _, record, ⟨live.posted fun u => ?_, idFree, unreserved, runs,
      allocated, by rw [same], rfl, rfl, rfl, fresh, knows, records⟩, rfl, copy⟩
    subst made
    exact (if_neg worker).symm

theorem allocate_begins (coherent : w.Coherent) (locality : Locality) {n : NodeId} {priority : Priority}
    {container : Container} {node : Node} (before : w.attempts.get? a = some s)
    (offered : w.nodes.get? n = some node) (may : w.mayAllocate s priority container.id = true) :
    ∃ s' r record, Begins w (w.allocate a locality n priority container).2 a s s' r record := by
  obtain ⟨s', r, record, begins, _⟩ := allocate_made coherent locality before offered may
  exact ⟨s', r, record, begins⟩

theorem complete_ends (coherent : w.Coherent) {c : ContainerId} (report : ExitReport) (ending : Ending)
    (partition : Partition) {r : RecordId} (before : w.attempts.get? a = some s)
    (found : s.live.get? c = some r) :
    ∃ s', Ends w (w.complete a c report ending partition).2 a s s' c r partition report ending := by
  have named := coherent.attemptNamed before
  have known : w.Knows r := by
    refine (coherent.runs (a := a) (c := c) ?_).1
    simp [running?, before, found]
  simp only [complete, before, found]
  generalize drop : (s.undelivered.filter fun u => (w.record u).id != c) = undelivered
  have gone := ((turn_refl before).updateAttempt (f := fun s => { s.accrue w.clock with
    marks := (s.marks.unmark c).2, live := s.live.erase c, undelivered }) rfl rfl rfl).updateRecord
      r (·.finish report ending)
  have noted := (gone.updateQueue (·.countRelease 1 (w.record r).resource)
    (.releasing (w.record r).resource) fun _ => rfl).decrease
      named .used partition (w.record r).resource
  have records := fun x => updateRecord_record w r x (·.finish report ending) known
  have knows := fun x => updateRecord_knows w r x (·.finish report ending)
  split
  · rename_i master
    have turn := (noted.decrease named .amUsed partition (w.record r).resource).updateAttempt
      (f := fun s => { s with
        accrual := s.accrual.invalidate, launch := s.launch.advance .completed "" }) rfl rfl rfl
    refine ⟨_, turn.posted fun u => ?_, found, rfl, drop.symm, rfl, rfl, knows, records⟩
    exact (if_pos master).symm
  · rename_i worker
    have turn := noted.updateAttempt (f := fun s => { s with
      accrual := s.accrual.invalidate, launch := s.launch }) rfl rfl rfl
    refine ⟨_, turn.posted fun u => ?_, found, rfl, drop.symm, rfl, rfl, knows, records⟩
    exact (if_neg worker).symm

theorem relabel_relabels (coherent : w.Coherent) {c : ContainerId} {old new : Partition} {r : RecordId}
    (before : w.attempts.get? a = some s)
    (found : s.live.get? c = some r) (apart : ¬ (old = new ∨ (w.record r).partition ≠ old)) :
    ∃ s', Relabels w (w.relabel a c old new).2 a s s' c r new := by
  have named := coherent.attemptNamed before
  have known : w.Knows r := by
    refine (coherent.runs (a := a) (c := c) ?_).1
    simp [running?, before, found]
  simp only [relabel, before, found, if_neg apart]
  obtain ⟨ne, same⟩ := not_or.mp apart
  obtain rfl := Classical.not_not.mp same
  have used := (((turn_refl before).decrease named .used (w.record r).partition
    (w.record r).resource).increase named .used new (w.record r).resource)
  have knows := fun x => updateRecord_knows w r x fun record => { record with partition := new }
  have records := fun x =>
    updateRecord_record w r x (fun record => { record with partition := new }) known
  split
  · rename_i master
    have turn := (((used.decrease named .amUsed (w.record r).partition
      (w.record r).resource).increase named .amUsed new (w.record r).resource).updateAttempt
        (f := fun s => { s with amPartition := new }) rfl rfl rfl).updateRecord r
          fun record => { record with partition := new }
    refine ⟨_, turn.posted fun u => ?_, found, ne, rfl, rfl, rfl, rfl, knows, records⟩
    exact (if_pos master).symm
  · rename_i worker
    have turn := used.updateRecord r fun record => { record with partition := new }
    refine ⟨_, turn.posted fun u => ?_, found, ne, rfl, rfl, rfl, rfl, knows, records⟩
    exact (if_neg worker).symm

theorem acquire_acquire (r : Record) : r.acquire.acquire = r.acquire := by
  unfold Record.acquire
  split <;> simp_all

theorem acquireAll (l : List RecordId) (known : ∀ r ∈ l, w.Knows r) :
    let w' := l.foldl (fun w r => w.updateRecord r (·.acquire)) w
    w'.attempts = w.attempts ∧ w'.queues = w.queues ∧ w'.nodes = w.nodes ∧
      (∀ x, w'.Knows x ↔ w.Knows x) ∧
      ∀ x, w'.record x = if x ∈ l then (w.record x).acquire else w.record x := by
  induction l generalizing w with
  | nil => simp
  | cons r l ih =>
    have first := known r (by simp)
    obtain ⟨attempts, queues, nodes, knows, records⟩ := ih (w := w.updateRecord r (·.acquire))
      fun x member => by simpa using known x (by simp [member])
    refine ⟨attempts, queues, nodes, fun x => (knows x).trans (updateRecord_knows w r x _), ?_⟩
    intro x
    refine (records x).trans ?_
    rw [updateRecord_record w r x _ first]
    by_cases here : x = r
    · subst here
      simp [acquire_acquire]
    · simp [here]

theorem snapshot_delivers (coherent : w.Coherent) (before : w.attempts.get? a = some s)
    (cluster : Resource) : ∃ s', Delivers w (w.snapshot a cluster).2 a s s' := by
  have known : ∀ r ∈ s.undelivered, w.Knows r := by
    intro r member
    have waits : r ∈ w.waiting a := by simpa [waiting, before] using member
    obtain ⟨c, runs⟩ := coherent.undelivered waits
    exact (coherent.runs runs).1
  obtain ⟨attempts, queues, nodes, knows, records⟩ := acquireAll s.undelivered known
  simp only [snapshot, before]
  have turn := ((turn_refl before).elsewhere attempts queues).updateAttempt
    (f := fun s' => { s' with
      marks := s.marks.drain.2, undelivered := []
      launch := if (s.undelivered.map fun r => (w.record r).container).any (·.isMaster) then
        s.launch.advance .launched "" else s.launch
      lastHeadroom := w.headroom s }) rfl rfl rfl
  exact ⟨_, turn, rfl, rfl, rfl, nodes, knows, records⟩

end ClusterLedger.World
