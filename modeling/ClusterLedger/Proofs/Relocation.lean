import ClusterLedger.Proofs.Slots
/- A reservation that moves to another node: when it may, everything that is written when it does,
   and that moving it back undoes all of it. -/
namespace ClusterLedger.World

structure Movable (w : World) (a : AttemptId) (p : Priority) (r : RecordId)
    (source target : NodeId) : Prop where
  named : (w.record r).reservedPriority = some p
  indexed : w.reservation? a ⟨p, source⟩ = some r
  alike : ∃ here there, w.nodes.get? source = some here ∧ w.nodes.get? target = some there ∧
    here.partition = there.partition
  vacant : w.slot? target = none

/-- A reservation goes from one node to another: the slots, the entry of the index and the node on
    the record. Everything else is as before. -/
structure Relocated (w w' : World) (a : AttemptId) (p : Priority) (r : RecordId)
    (source target : NodeId) : Prop where
  nodes : ∀ n, w'.nodes.get? n = (w.nodes.get? n).map fun node =>
    if n = target then { node with slot := some ⟨a, p, r⟩ }
    else if n = source then { node with slot := none } else node
  attempts : ∀ x, w'.attempts.get? x = (w.attempts.get? x).map fun s =>
    if x = a then
      { s with reservations := (s.reservations.erase ⟨p, source⟩).insert ⟨p, target⟩ r }
    else s
  queues : w'.queues = w.queues
  size : w'.records.size = w.records.size
  records : ∀ x, w'.record x = if x = r then { w.record r with node := target } else w.record x
  clock : w'.clock = w.clock

/-- Books are determined by what can be read in them. -/
theorem eq_of_readings {w w' : World} (nodes : ∀ n, w.nodes.get? n = w'.nodes.get? n)
    (queues : w.queues = w'.queues) (attempts : ∀ a, w.attempts.get? a = w'.attempts.get? a)
    (size : w.records.size = w'.records.size) (records : ∀ r, w.record r = w'.record r)
    (clock : w.clock = w'.clock) : w = w' := by
  have written : w.records = w'.records := by
    refine Array.ext size fun i within within' => ?_
    have read := records ⟨i⟩
    simpa [record, Array.getD_eq_getD_getElem?, within, within'] using read
  have noded := Table.eq_of_lookup nodes
  have listed := Table.eq_of_lookup attempts
  cases w
  cases w'
  simp_all

variable {w w' w'' : World} {a : AttemptId} {p : Priority} {r : RecordId} {source target : NodeId}

theorem Movable.apart (movable : w.Movable a p r source target) (sound : w.Sound) :
    source ≠ target := by
  rintro rfl
  have held := sound.agree.mpr movable.indexed
  simp [movable.vacant] at held

theorem Movable.unindexed (movable : w.Movable a p r source target) (sound : w.Sound) :
    w.reservation? a ⟨p, target⟩ = none := by
  cases stands : w.reservation? a ⟨p, target⟩ with
  | none => rfl
  | some other =>
    have held := sound.agree.mpr stands
    simp [movable.vacant] at held

theorem move_refused_or_movable (w : World) (a : AttemptId) (r : RecordId) (source target : NodeId) :
    w.moveReservation a r source target = (false, w) ∨ ∃ p, w.Movable a p r source target := by
  unfold moveReservation
  split
  · rename_i s here there before offered wanted
    split
    · exact .inl rfl
    · rename_i p named
      split
      · rename_i may
        split
        · exact .inl rfl
        · rename_i filled filling
          have vacant : there.slot = none := by
            unfold Node.reserveVacant at filling
            split at filling
            · assumption
            · simp at filling
          refine .inr ⟨p, named, ?_, ⟨here, there, offered, wanted, may.1⟩, ?_⟩
          · simp [reservation?, before, may.2.2]
          · simp [slot?, wanted, vacant]
      · exact .inl rfl
  · exact .inl rfl

theorem updateRecord_attempts (w : World) (r : RecordId) (f : Record → Record) :
    (w.updateRecord r f).attempts = w.attempts := rfl

theorem updateNode_attempts (w : World) (n : NodeId) (f : Node → Node) :
    (w.updateNode n f).attempts = w.attempts := rfl

theorem addNode_attempts (w : World) (node : Node) : (w.addNode node).attempts = w.attempts := rfl

theorem updateAttempt_each (w : World) (a x : AttemptId) (f : Attempt → Attempt) :
    (w.updateAttempt a f).attempts.get? x =
      (w.attempts.get? x).map fun s => if x = a then f s else s := by
  rw [updateAttempt_attempts]
  by_cases own : x = a
  · simp [own]
  · simp [own]

def relocate (w : World) (a : AttemptId) (p : Priority) (r : RecordId) (source target : NodeId)
    (filled : Node) : World :=
  ((((w.addNode filled).updateNode source (·.vacate r)).unindex a ⟨p, source⟩).updateRecord r
    fun record => record.reserve record.reservedResource target p).index a ⟨p, target⟩ r

theorem relocate_nodes (filled : Node) (n : NodeId) :
    (w.relocate a p r source target filled).nodes.get? n =
      if n = source then
        (if source = filled.id then some filled else w.nodes.get? source).map (·.vacate r)
      else if n = filled.id then some filled else w.nodes.get? n := by
  refine (updateNode_nodes (w.addNode filled) source n (·.vacate r)).trans ?_
  simp only [addNode_nodes]

theorem relocate_attempts (filled : Node) (x : AttemptId) :
    (w.relocate a p r source target filled).attempts.get? x = (w.attempts.get? x).map fun s =>
      if x = a then
        { s with reservations := (s.reservations.erase ⟨p, source⟩).insert ⟨p, target⟩ r }
      else s := by
  simp only [relocate, index, unindex, updateRecord_attempts, updateNode_attempts,
    addNode_attempts, updateAttempt_each, Option.map_map]
  congr 1
  funext s
  by_cases own : x = a <;> simp [own]

theorem move_relocates (sound : w.Sound) (movable : w.Movable a p r source target) :
    ∃ w', w.moveReservation a r source target = (true, w') ∧ Relocated w w' a p r source target := by
  obtain ⟨here, there, offered, wanted, partition⟩ := movable.alike
  obtain ⟨s, before, found⟩ := Option.bind_eq_some_iff.mp movable.indexed
  have apart := movable.apart sound
  have held : here.slot = some ⟨a, p, r⟩ := by
    simpa [slot?, offered] using sound.agree.mpr movable.indexed
  have vacant : there.slot = none := by
    simpa [slot?, wanted] using movable.vacant
  have filed := sound.nodeNamed wanted
  obtain ⟨known, stands⟩ := sound.stands movable.indexed
  have holds : here.heldBy r = true := by
    simp [Node.heldBy, held]
  generalize fill : ({ there with slot := some ⟨a, p, r⟩ } : Node) = filled
  have filling : there.reserveVacant a p r = .ok filled := by
    simp [Node.reserveVacant, vacant, fill]
  refine ⟨w.relocate a p r source target filled, ?_, ?_, relocate_attempts filled, rfl, ?_, ?_, rfl⟩
  · simp [moveReservation, before, offered, wanted, movable.named, partition, holds, found, filling,
      relocate]
  · intro n
    simp only [relocate_nodes, ← fill, filed]
    by_cases atTarget : n = target
    · simp [atTarget, Ne.symm apart, wanted, filed]
    · by_cases atSource : n = source
      · simp [atSource, apart, offered, Node.vacate, holds]
      · simp [atTarget, atSource]
  · simp [relocate, index, unindex, updateRecord, updateAttempt, updateNode, addNode]
  · intro x
    refine (updateRecord_record _ r x _ known).trans ?_
    split
    · have priority : (w.record r).reservedPriority = some p := stands.priority
      have state : (w.record r).state = .reserved := stands.state
      change (w.record r).reserve (w.record r).reservedResource target p = _
      rw [Record.reserve, ← priority, ← state]
    · rfl

theorem Relocated.slots (relocated : Relocated w w' a p r source target)
    (movable : w.Movable a p r source target) (apart : source ≠ target) :
    w'.slot? source = none ∧ w'.slot? target = some ⟨a, p, r⟩ := by
  obtain ⟨here, there, offered, wanted, _⟩ := movable.alike
  constructor
  · simp [slot?, relocated.nodes, offered, apart]
  · simp [slot?, relocated.nodes, wanted]

theorem Relocated.movable_back (relocated : Relocated w w' a p r source target)
    (movable : w.Movable a p r source target) (apart : source ≠ target) :
    w'.Movable a p r target source where
  named := by
    rw [relocated.records, if_pos rfl]
    exact movable.named
  indexed := by
    obtain ⟨s, before, _⟩ := Option.bind_eq_some_iff.mp movable.indexed
    simp [reservation?, relocated.attempts, before]
  alike := by
    obtain ⟨here, there, offered, wanted, same⟩ := movable.alike
    exact ⟨{ there with slot := some ⟨a, p, r⟩ }, { here with slot := none },
      by simp [relocated.nodes, wanted], by simp [relocated.nodes, offered, apart], same.symm⟩
  vacant := (relocated.slots movable apart).1

theorem Relocated.turn (relocated : Relocated w w' a p r source target) {s : Attempt}
    (before : w.attempts.get? a = some s) : Turn w w' a s
      { s with reservations := (s.reservations.erase ⟨p, source⟩).insert ⟨p, target⟩ r } id id where
  before := before
  attempts b := by
    rw [relocated.attempts]
    by_cases own : b = a
    · simp [own, before]
    · simp [own]
  queues q := by
    rw [relocated.queues]
    exact (turn_refl before).queues q
  named := rfl
  queue := rfl
  usage := rfl

theorem Relocated.undone (sound : w.Sound) (movable : w.Movable a p r source target)
    (out : Relocated w w' a p r source target) (back : Relocated w' w'' a p r target source) :
    w'' = w := by
  have apart := movable.apart sound
  obtain ⟨here, there, offered, wanted, _⟩ := movable.alike
  refine eq_of_readings ?_ (back.queues.trans out.queues) ?_ (back.size.trans out.size) ?_
    (back.clock.trans out.clock)
  · intro n
    have held : here.slot = some ⟨a, p, r⟩ := by
      simpa [slot?, offered] using sound.agree.mpr movable.indexed
    have vacant : there.slot = none := by
      simpa [slot?, wanted] using movable.vacant
    rw [back.nodes, out.nodes, Option.map_map]
    by_cases atSource : n = source
    · simp [atSource, offered, apart, ← held]
    · by_cases atTarget : n = target
      · simp [atTarget, wanted, Ne.symm apart, ← vacant]
      · simp [atSource, atTarget, Function.comp_def]
  · intro x
    rw [back.attempts, out.attempts, Option.map_map]
    by_cases own : x = a
    · obtain ⟨s, before, found⟩ := Option.bind_eq_some_iff.mp movable.indexed
      have unindexed : s.reservations.get? ⟨p, target⟩ = none := by
        simpa [reservation?, before] using movable.unindexed sound
      have restored : (((s.reservations.erase ⟨p, source⟩).insert ⟨p, target⟩ r).erase
          ⟨p, target⟩).insert ⟨p, source⟩ r = s.reservations := by
        refine Table.eq_of_lookup fun b => ?_
        simp only [Table.lookup_insert, Table.lookup_erase]
        grind
      simp [own, before, restored]
    · simp [own, Function.comp_def]
  · intro x
    rw [back.records, out.records, out.records]
    have node : (w.record r).node = source := (sound.stands movable.indexed).2.node
    by_cases own : x = r
    · simp [own, ← node]
    · simp [own]

/-- In any state that calls lead to, a move answers true exactly where the reservation may move. It
    then relocates the reservation and nothing else, and moving it back succeeds and restores the
    whole state; where it answers false it changes nothing. -/
theorem move_exact {start : World} (opening : start.Opening) (calls : List Call) (a : AttemptId)
    (r : RecordId) (source target : NodeId) :
    let w := start.after calls
    ((w.moveReservation a r source target).1 = true ↔ ∃ p, w.Movable a p r source target) ∧
    ((w.moveReservation a r source target).1 = false →
      (w.moveReservation a r source target).2 = w) ∧
    ∀ p, w.Movable a p r source target → ∃ w',
      w.moveReservation a r source target = (true, w') ∧ Relocated w w' a p r source target ∧
      w'.slot? source = none ∧ w'.slot? target = some ⟨a, p, r⟩ ∧
      w'.moveReservation a r target source = (true, w) := by
  intro w
  have sound : w.Sound := opening.sound.after calls
  refine ⟨⟨fun moved => ?_, fun ⟨p, movable⟩ => ?_⟩, fun unmoved => ?_, fun p movable => ?_⟩
  · refine (move_refused_or_movable w a r source target).resolve_left fun refused => ?_
    simp [refused] at moved
  · obtain ⟨w', answer, _⟩ := move_relocates sound movable
    rw [answer]
  · rcases move_refused_or_movable w a r source target with refused | ⟨p, movable⟩
    · rw [refused]
    · obtain ⟨w', answer, _⟩ := move_relocates sound movable
      simp [answer] at unmoved
  · obtain ⟨w', answer, out⟩ := move_relocates sound movable
    have apart := movable.apart sound
    have sound' : w'.Sound := by
      have performed := sound.perform (.move a r source target)
      rwa [perform, answer] at performed
    obtain ⟨w'', returned, back⟩ := move_relocates sound' (out.movable_back movable apart)
    obtain rfl := out.undone sound movable back
    obtain ⟨emptied, filled⟩ := out.slots movable apart
    exact ⟨w', answer, out, emptied, filled, returned⟩

theorem move_exact_sample :
    let calls : List Call :=
      [.reserve ⟨"a"⟩ ⟨1⟩ ⟨"n1"⟩ none ⟨⟨"c1"⟩, ⟨"n1"⟩, ⟨4096, 1⟩, ⟨1⟩, false, none⟩]
    let w := sample.after calls
    w.Movable ⟨"a"⟩ ⟨1⟩ ⟨0⟩ ⟨"n1"⟩ ⟨"n2"⟩ ∧
      (w.moveReservation ⟨"a"⟩ ⟨0⟩ ⟨"n1"⟩ ⟨"n2"⟩).1 = true ∧
      ∃ w' : World, w'.slot? ⟨"n2"⟩ = some ⟨⟨"a"⟩, ⟨1⟩, ⟨0⟩⟩ ∧
        w'.moveReservation ⟨"a"⟩ ⟨0⟩ ⟨"n2"⟩ ⟨"n1"⟩ = (true, w) := by
  intro calls w
  have movable : w.Movable ⟨"a"⟩ ⟨1⟩ ⟨0⟩ ⟨"n1"⟩ ⟨"n2"⟩ := by
    refine ⟨by decide, by decide, ⟨_, _, rfl, rfl, by decide⟩, by decide⟩
  obtain ⟨moves, _, moved⟩ := move_exact sample_opening calls ⟨"a"⟩ ⟨0⟩ ⟨"n1"⟩ ⟨"n2"⟩
  obtain ⟨w', _, _, _, filled, back⟩ := moved ⟨1⟩ movable
  exact ⟨movable, moves.mpr ⟨_, movable⟩, w', filled, back⟩

end ClusterLedger.World
