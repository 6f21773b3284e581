import ClusterLedger.Proofs.Agreement
/- Reservations that are made, made again, given up and moved: each operation, where it does
   anything, is one change of the books, or two when one reservation takes the slot of another. -/
namespace ClusterLedger

def Attempt.without (s : Attempt) (b : Berth) (r : Record) : Attempt :=
  { s with
    reservations := s.reservations.erase b
    usage := s.usage.decrease .reserved r.partition r.reservedResource }

theorem Attempt.mem_reservationsAt {s : Attempt} {priority : Priority} {n : NodeId} {r : RecordId} :
    (n, r) ∈ s.reservationsAt priority ↔ s.reservations.get? ⟨priority, n⟩ = some r := by
  simp only [reservationsAt, List.mem_map, List.mem_filter, beq_iff_eq, Table.mem_entries,
    Prod.exists]
  constructor
  · rintro ⟨b, r', ⟨there, rfl⟩, same⟩
    obtain ⟨rfl, rfl⟩ := Prod.mk.inj same
    exact there
  · exact fun there => ⟨⟨priority, n⟩, r, ⟨there, rfl⟩, rfl⟩

theorem Attempt.reservationsAt_ascending (s : Attempt) (priority : Priority) :
    (s.reservationsAt priority).Pairwise fun a b => compare a.1 b.1 = .lt := by
  refine List.pairwise_map.mpr ((s.reservations.ascending.filter _).imp_of_mem ?_)
  rintro ⟨b, r⟩ ⟨b', r'⟩ here there less
  have same : b.priority = b'.priority := by
    simp only [List.mem_filter, beq_iff_eq] at here there
    rw [here.2, there.2]
  have lexical : (compare b.priority b'.priority).then (compare b.node b'.node) = .lt := less
  simpa [same] using lexical

namespace World
variable {w m : World} {a : AttemptId} {s s' : Attempt} {postings : Usage → Usage}
  {notes : QueueMetrics → QueueMetrics}

theorem Turn.retire (turn : Turn w m a s s' postings notes) (named : s.id = a) (b : Berth)
    (r : RecordId) :
    Turn w (m.retire s b r) a s (s'.without b (m.record r))
      (fun u => (postings u).decrease .reserved (m.record r).partition
        (m.record r).reservedResource)
      fun x => (notes x).unreserving (m.record r).reservedResource := by
  have unindexed : Turn w (m.unindex s.id b) a s
      { s' with reservations := s'.reservations.erase b } postings notes := by
    rw [named]
    exact turn.updateAttempt (f := fun s => { s with reservations := s.reservations.erase b })
      rfl rfl rfl
  exact (unindexed.decrease named .reserved _ _).updateQueue
    (·.uncountReservation (m.record r).reservedResource) (.unreserving _) fun _ => rfl

@[simp] theorem retire_nodes (b : Berth) (r : RecordId) : (m.retire s b r).nodes = m.nodes := rfl

@[simp] theorem retireDisplaced_nodes (n : NodeId) (displaced : Option Slot) (r : RecordId) :
    (m.retireDisplaced s n displaced r).nodes = m.nodes := by
  unfold retireDisplaced
  split
  · rfl
  · split
    · rfl
    · split <;> rfl

theorem settle_record (known : m.Knows r) (b : Berth) (resource : Resource) (x : RecordId) :
    (m.settle s b resource r).record x =
      if x = r then (m.record r).reserve resource b.node b.priority else m.record x :=
  updateRecord_record m r x _ known

theorem settle_knows (b : Berth) (resource : Resource) (r x : RecordId) :
    (m.settle s b resource r).Knows x ↔ m.Knows x :=
  updateRecord_knows m r x _

theorem Turn.settle (turn : Turn w m a s s' postings notes) (named : s.id = a) {r : RecordId}
    (known : m.Knows r) (b : Berth) (resource : Resource) :
    Turn w (m.settle s b resource r) a s
      { s' with
        reservations := s'.reservations.insert b r
        usage := s'.usage.increase .reserved (m.record r).partition resource }
      (fun u => (postings u).increase .reserved (m.record r).partition resource) notes := by
  have written := updateRecord_record m r r (·.reserve resource b.node b.priority) known
  have counted := (turn.updateRecord r (·.reserve resource b.node b.priority)).increase named
    .reserved (m.record r).partition resource
  have indexed := counted.updateAttempt
    (f := fun s => { s with reservations := s.reservations.insert b r }) rfl rfl rfl
  simp only [World.settle, account, index, written, ↓reduceIte, named]
  exact indexed

def enlist (w : World) (s : Attempt) (b : Berth) (resource : Resource) (r : RecordId) : World :=
  (w.updateQueue s.queue (·.countReservation resource)).settle s b resource r

theorem enlist_enlists {m' : World} {b : Berth} {r : RecordId} {fresh : Record}
    (turn : Turn w m a s s' postings notes) (same : Turn w m' a s s' postings notes)
    (named : s.id = a) (resource : Resource) (idFree : s'.live.get? fresh.id = none)
    (owner : fresh.attempt = a) (unknown : ¬ m.Knows r)
    (knows : ∀ x, m'.Knows x ↔ m.Knows x ∨ x = r)
    (records : ∀ x, m'.record x = if x = r then fresh else m.record x) :
    ∃ s'', Enlists m (m'.enlist s b resource r) a s' s'' b r
      (fresh.reserve resource b.node b.priority) := by
  have known : m'.Knows r := (knows r).mpr (.inr rfl)
  have written : m'.record r = fresh := by
    rw [records, if_pos rfl]
  have whole := (same.updateQueue (·.countReservation resource) (.reserving resource)
    fun _ => rfl).settle named known b resource
  subst written
  refine ⟨_, turn.rest whole, idFree, ⟨owner, rfl, rfl, rfl⟩, rfl, rfl, rfl, unknown, ?_, ?_⟩
  · intro x
    exact (settle_knows b resource r x).trans (knows x)
  · intro x
    refine (settle_record (s := s) known b resource x).trans ?_
    split
    · rfl
    · rename_i other
      exact (records x).trans (if_neg other)

theorem enlist_reserves {m' : World} {b : Berth} {node : Node} {r : RecordId} {fresh : Record}
    (turn : Turn w m a s s' postings notes) (same : Turn w m' a s s' postings notes)
    (named : s.id = a) (resource : Resource) (idFree : s'.live.get? fresh.id = none)
    (offered : m.nodes.get? b.node = some node) (vacant : node.slot = none)
    (nodes : ∀ n, m'.nodes.get? n =
      if n = b.node then some { node with slot := some ⟨a, b.priority, r⟩ } else m.nodes.get? n)
    (owner : fresh.attempt = a) (unknown : ¬ m.Knows r)
    (knows : ∀ x, m'.Knows x ↔ m.Knows x ∨ x = r)
    (records : ∀ x, m'.record x = if x = r then fresh else m.record x) :
    ∃ s'', Reserves m (m'.enlist s b resource r) a s' s'' b node r
      (fresh.reserve resource b.node b.priority) := by
  obtain ⟨s'', enlists⟩ :=
    enlist_enlists (b := b) turn same named resource idFree owner unknown knows records
  exact ⟨s'', enlists, offered, vacant, nodes⟩

variable {b : Berth} {node : Node} {container : Container}

theorem reserveFresh_eq {priority : Priority} {fresh : Record} {r : RecordId}
    {displaced : Option Slot} {filled : Node}
    (made : Record.make container s.id s.user node.partition = fresh)
    (taken : (w.addRecord fresh).1 = r)
    (answer : node.reserve s.id priority r = .ok (displaced, filled)) :
    w.reserveFresh s priority node container =
      (.ok r, (((w.addRecord fresh).2.addNode filled).retireDisplaced s node.id displaced r).enlist
        s ⟨priority, node.id⟩ container.resource r) := by
  subst made taken
  simp only [reserveFresh, answer]
  rfl

theorem reserveFresh_vacant (sound : w.Sound) (before : w.attempts.get? a = some s)
    (offered : w.nodes.get? b.node = some node) (idFree : s.live.get? container.id = none)
    (vacant : node.slot = none) :
    ∃ r w' s' record, w.reserveFresh s b.priority node container = (.ok r, w') ∧
      Reserves w w' a s s' b node r record := by
  have named := sound.attemptNamed before
  have filed := sound.nodeNamed offered
  have berth : (⟨b.priority, node.id⟩ : Berth) = b := by rw [filed]
  generalize made : Record.make container s.id s.user node.partition = fresh
  generalize taken : (w.addRecord fresh).1 = r
  generalize fill : ({ node with slot := some ⟨s.id, b.priority, r⟩ } : Node) = filled
  have answer : node.reserve s.id b.priority r = .ok (none, filled) := by
    simp [Node.reserve, vacant, fill]
  have unknown : ¬ w.Knows r := by
    simp [← taken, Knows, addRecord]
  have nodes : ∀ n, ((w.addRecord fresh).2.addNode filled).nodes.get? n =
      if n = b.node then some { node with slot := some ⟨a, b.priority, r⟩ }
      else w.nodes.get? n := by
    intro n
    simp [← fill, filed, named]
  obtain ⟨s', reserves⟩ := enlist_reserves (turn_refl before)
    (((turn_refl before).addRecord fresh).addNode filled) named container.resource (made ▸ idFree)
    offered vacant nodes (made ▸ named) unknown (fun x => taken ▸ addRecord_knows w x fresh)
    fun x => taken ▸ addRecord_record w x fresh
  refine ⟨r, _, s', _, ?_, reserves⟩
  rw [reserveFresh_eq made taken answer, berth]
  rfl

theorem retire_drops (named : s.id = a) (before : w.attempts.get? a = some s) {r : RecordId}
    (found : s.reservations.get? b = some r) {f : Attempt → Attempt} (kept : (f s).KeepsBooks s) :
    Drops w ((w.updateAttempt a f).retire s b r) a s ((f s).without b (w.record r)) b r where
  toTurn := ((turn_refl before).updateAttempt kept.named kept.queue kept.usage).retire named b r
  found := found
  live := kept.live
  undelivered := kept.undelivered
  reservations := congrArg (·.erase b) kept.reservations
  knows _ := .rfl
  records _ := rfl

theorem retire_lapses (coherent : w.Coherent) (before : w.attempts.get? a = some s) {r : RecordId}
    (found : s.reservations.get? b = some r) {f : Attempt → Attempt} (kept : (f s).KeepsBooks s) :
    Lapses w (((w.updateAttempt a f).retire s b r).updateNode b.node (·.vacate r)) a s
      ((f s).without b (w.record r)) b r :=
  have drops := retire_drops (coherent.attemptNamed before) before found kept
  ⟨⟨drops.toTurn.updateNode _ _, found, drops.live, drops.undelivered, drops.reservations,
    drops.knows, drops.records⟩, fun _ => updateNode_nodes _ _ _ _⟩

theorem reserveFresh_displaced (sound : w.Sound) (before : w.attempts.get? a = some s)
    (offered : w.nodes.get? b.node = some node) (idFree : s.live.get? container.id = none)
    {priority : Priority} {old : RecordId} (slot : node.slot = some ⟨a, priority, old⟩) :
    ∃ r m w' s' s'' b' record, w.reserveFresh s b.priority node container = (.ok r, w') ∧
      b'.node = b.node ∧ Lapses w m a s s' b' old ∧
      Reserves m w' a s' s'' b { node with slot := none } r record := by
  have named := sound.attemptNamed before
  have filed := sound.nodeNamed offered
  have stands : w.reservation? a ⟨priority, b.node⟩ = some old := by
    rw [← sound.agree]
    simp [slot?, offered, slot]
  have found : s.reservations.get? ⟨priority, b.node⟩ = some old := by
    simpa [reservation?, before] using stands
  have known := (sound.stands stands).1
  have berth : (⟨b.priority, node.id⟩ : Berth) = b := by rw [filed]
  generalize made : Record.make container s.id s.user node.partition = fresh
  generalize taken : (w.addRecord fresh).1 = r
  generalize fill : ({ node with slot := some ⟨s.id, b.priority, r⟩ } : Node) = filled
  have answer : node.reserve s.id b.priority r = .ok (some ⟨a, priority, old⟩, filled) := by
    simp [Node.reserve, slot, named, ← fill]
  have unknown : ¬ w.Knows r := by
    simp [← taken, Knows, addRecord]
  have other : old ≠ r := by
    rintro rfl
    exact unknown known
  have kept : (w.addRecord fresh).2.record old = w.record old := by
    rw [addRecord_record, taken, if_neg other]
  have lapses := retire_lapses sound.toCoherent before found (f := id) ⟨rfl, rfl, rfl, rfl, rfl, rfl⟩
  have vacated : (((w.updateAttempt a id).retire s ⟨priority, b.node⟩ old).updateNode b.node
      (·.vacate old)).nodes.get? b.node = some { node with slot := none } := by
    simp [offered, Node.vacate, Node.heldBy, slot]
  have dropped := (((turn_refl before).addRecord fresh).addNode filled).retire named
    ⟨priority, b.node⟩ old
  simp only [addNode_record, kept] at dropped
  have nodes : ∀ n, (((w.addRecord fresh).2.addNode filled).retire s ⟨priority, b.node⟩
      old).nodes.get? n = if n = b.node then some { node with slot := some ⟨a, b.priority, r⟩ }
      else (((w.updateAttempt a id).retire s ⟨priority, b.node⟩ old).updateNode b.node
        (·.vacate old)).nodes.get? n := by
    intro n
    simp only [← fill, retire_nodes, addNode_nodes, filed, named, addRecord_nodes, updateNode_nodes,
      updateAttempt_nodes]
    split <;> rfl
  -- The slot is filled before the old reservation goes; the books cannot tell.
  obtain ⟨s'', reserves⟩ := enlist_reserves lapses.toTurn dropped named container.resource
    (made ▸ idFree) vacated rfl nodes (made ▸ named) unknown
    (fun x => taken ▸ addRecord_knows w x fresh) fun x => taken ▸ addRecord_record w x fresh
  refine ⟨r, _, _, _, s'', ⟨priority, b.node⟩, _, ?_, rfl, lapses, reserves⟩
  rw [reserveFresh_eq made taken answer, berth]
  simp only [retireDisplaced, other, ↓reduceIte, filed, found]

/-- What a repeated reservation does before it settles: the old size goes, the partition is read
    anew. -/
def renew (w : World) (s : Attempt) (priority : Priority) (p : Partition) (r : RecordId) : World :=
  ((w.unaccount s r).updateRecord r fun record => { record with partition := p }).updateAttempt s.id
    (·.countReReservation priority)

theorem renew_record {r : RecordId} (known : m.Knows r) (priority : Priority) (p : Partition)
    (x : RecordId) : (m.renew s priority p r).record x =
      if x = r then { m.record r with partition := p } else m.record x :=
  updateRecord_record m r x _ known

theorem renew_knows (priority : Priority) (p : Partition) (r x : RecordId) :
    (m.renew s priority p r).Knows x ↔ m.Knows x :=
  updateRecord_knows m r x _

theorem Turn.renew (turn : Turn w m a s s' postings notes) (named : s.id = a) (priority : Priority)
    (p : Partition) (r : RecordId) :
    Turn w (m.renew s priority p r) a s
      { s'.countReReservation priority with
        usage := s'.usage.decrease .reserved (m.record r).partition (m.record r).reservedResource }
      (fun u => (postings u).decrease .reserved (m.record r).partition
        (m.record r).reservedResource) notes := by
  subst named
  exact ((turn.decrease rfl .reserved _ _).updateRecord r _).updateAttempt rfl rfl rfl

theorem renew_remakes {m' : World} {r : RecordId} (turn : Turn w m a s s' postings notes)
    (same : Turn w m' a s s' postings notes) (named : s.id = a) (known : m.Knows r)
    (found : s'.reservations.get? b = some r) (p : Partition) (resource : Resource)
    (knows : ∀ x, m'.Knows x ↔ m.Knows x) (records : ∀ x, m'.record x = m.record x) :
    ∃ s'', Remakes m ((m'.renew s b.priority p r).settle s b resource r) a s' s'' b r p resource := by
  have there : m'.Knows r := (knows r).mpr known
  have known' : (m'.renew s b.priority p r).Knows r := (renew_knows b.priority p r r).mpr there
  have written := renew_record (s := s) there b.priority p
  have whole := (same.renew named b.priority p r).settle named known' b resource
  rw [written, if_pos rfl, records r] at whole
  refine ⟨_, turn.rest whole, found, rfl, rfl, Table.insert_same found, ?_, ?_⟩
  · intro x
    exact (settle_knows b resource r x).trans ((renew_knows b.priority p r x).trans (knows x))
  · intro x
    simp only [settle_record known', written, ↓reduceIte, records]
    split <;> rfl

theorem reserveAgain_resizes (sound : w.Sound) (before : w.attempts.get? a = some s)
    (offered : w.nodes.get? b.node = some node) {r : RecordId}
    (found : s.reservations.get? b = some r) (resource : Resource) :
    ∃ w' s', w.reserveAgain s b.priority node resource r = (.ok r, w') ∧
      Resizes w w' a s s' b r node.partition resource := by
  have named := sound.attemptNamed before
  have filed := sound.nodeNamed offered
  have berth : (⟨b.priority, node.id⟩ : Berth) = b := by rw [filed]
  have stands : w.reservation? a b = some r := by
    simp [reservation?, before, found]
  have slot : node.slot = some ⟨a, b.priority, r⟩ := by
    simpa [slot?, offered] using sound.agree.mpr stands
  have full : ({ node with slot := some ⟨a, b.priority, r⟩ } : Node) = node := by
    rw [← slot]
  have answer : node.reserve s.id b.priority r = .ok (some ⟨a, b.priority, r⟩, node) := by
    simp only [Node.reserve, slot, named, full, ↓reduceIte]
  have nodes : (w.addNode node).nodes = w.nodes := Table.insert_same (filed ▸ offered)
  obtain ⟨s', remakes⟩ := renew_remakes (turn_refl before) ((turn_refl before).addNode node) named
    (sound.stands stands).1 found node.partition resource (fun _ => .rfl) fun _ => rfl
  refine ⟨_, s', ?_, remakes, nodes⟩
  simp only [reserveAgain, answer, retireDisplaced, ↓reduceIte, berth]
  rfl

theorem reserve_displaces {filled : Node} {priority : Priority} {r : RecordId}
    {displaced : Option Slot} (filling : node.reserve a priority r = .ok (displaced, filled)) :
    displaced = node.slot := by
  unfold Node.reserve at filling
  split at filling
  · rename_i vacant
    exact (Prod.mk.inj (Except.ok.inj filling)).1.symm.trans vacant.symm
  · split at filling
    · rename_i held _
      exact (Prod.mk.inj (Except.ok.inj filling)).1.symm.trans held.symm
    · simp at filling

section Answers
variable {α ε ε' : Type} {outcome : Except ε α} {f : ε → ε'}

theorem mapError_ok {x : α} : outcome.mapError f = .ok x ↔ outcome = .ok x := by
  cases outcome <;> simp [Except.mapError]

theorem mapError_error {e : ε'} :
    outcome.mapError f = .error e ↔ ∃ e', outcome = .error e' ∧ e = f e' := by
  cases outcome with
  | error e' =>
    simp only [Except.mapError, Except.error.injEq, exists_eq_left']
    exact eq_comm
  | ok x => simp [Except.mapError]

end Answers

section Refused
variable {priority : Priority} {occupied : SlotOccupied}

theorem reserveFresh_refused
    (refused : (w.reserveFresh s priority node container).1 = .error occupied) :
    (w.reserveFresh s priority node container).2 = w := by
  simp only [reserveFresh] at refused ⊢
  split at refused
  · rfl
  · simp at refused

theorem reserveAgain_refused {resource : Resource} {r : RecordId}
    (refused : (w.reserveAgain s priority node resource r).1 = .error occupied) :
    (w.reserveAgain s priority node resource r).2 = w := by
  simp only [reserveAgain] at refused ⊢
  split at refused
  · rfl
  · simp at refused

theorem reserveOver_refused {standing existing : Option RecordId}
    (refused : (w.reserveOver s priority node standing existing container).1 = .error occupied) :
    (w.reserveOver s priority node standing existing container).2 = w := by
  unfold reserveOver at refused ⊢
  split at refused
  · split at refused
    · rename_i same
      rw [if_pos same]
      exact reserveAgain_refused refused
    · rename_i other
      rw [if_neg other]
      exact reserveFresh_refused refused
  · exact reserveFresh_refused refused

/-- Whatever stands in the way of a reservation, nothing was written before it was noticed. -/
theorem tryReserve_refused {n : NodeId} {existing : Option RecordId} {e : LedgerError}
    (refused : (w.tryReserve a priority n existing container).1 = .error e) :
    (w.tryReserve a priority n existing container).2 = w := by
  unfold tryReserve at refused ⊢
  split at refused
  · split at refused
    · rename_i running
      rw [if_pos running]
    · rename_i idle
      rw [if_neg idle]
      obtain ⟨occupied, refused, _⟩ := mapError_error.mp refused
      exact reserveOver_refused refused
  · rfl

end Refused

section Made
variable {w' : World} {priority : Priority} {r r' : RecordId} {n : NodeId} {existing : Option RecordId}

theorem reserve_eq_ok : w.reserve a priority n existing container = .ok (r, w') ↔
    w.tryReserve a priority n existing container = (.ok r, w') := by
  unfold reserve
  generalize w.tryReserve a priority n existing container = answer
  obtain ⟨outcome | outcome, m⟩ := answer <;> simp [Except.map]

theorem reserve_eq_error {e : LedgerError} : w.reserve a priority n existing container = .error e ↔
    w.tryReserve a priority n existing container = (.error e, w) := by
  have kept : (w.tryReserve a priority n existing container).1 = .error e →
      (w.tryReserve a priority n existing container).2 = w := tryReserve_refused
  unfold reserve
  generalize w.tryReserve a priority n existing container = answer at kept
  obtain ⟨outcome | outcome, m⟩ := answer
  · simp_all [Except.map]
  · simp [Except.map]

theorem perform_reserved (answer : w.reserve a priority n existing container = .ok (r, w')) :
    w.perform (.reserve a priority n existing container) = w' :=
  congrArg Prod.snd (reserve_eq_ok.mp answer)

theorem perform_refused {e : LedgerError}
    (answer : w.reserve a priority n existing container = .error e) :
    w.perform (.reserve a priority n existing container) = w :=
  congrArg Prod.snd (reserve_eq_error.mp answer)

theorem reserveFresh_made (answer : w.reserveFresh s priority node container = (.ok r, w')) :
    ∃ fresh filled, Record.make container s.id s.user node.partition = fresh ∧
      (w.addRecord fresh).1 = r ∧ node.reserve s.id priority r = .ok (node.slot, filled) ∧
      w' = (((w.addRecord fresh).2.addNode filled).retireDisplaced s node.id node.slot r).enlist s
        ⟨priority, node.id⟩ container.resource r := by
  generalize made : Record.make container s.id s.user node.partition = fresh
  generalize taken : (w.addRecord fresh).1 = r'
  cases filling : node.reserve s.id priority r' with
  | error e => simp [reserveFresh, made, taken, filling] at answer
  | ok result =>
    obtain ⟨displaced, filled⟩ := result
    obtain rfl := reserve_displaces filling
    rw [reserveFresh_eq made taken filling] at answer
    obtain ⟨same, rfl⟩ := Prod.mk.inj answer
    obtain rfl := Except.ok.inj same
    exact ⟨fresh, filled, rfl, taken, filling, rfl⟩

theorem reserveAgain_made {resource : Resource}
    (answer : w.reserveAgain s priority node resource r = (.ok r', w')) :
    r' = r ∧ ∃ filled, node.reserve s.id priority r = .ok (node.slot, filled) ∧
      w' = (((w.addNode filled).retireDisplaced s node.id node.slot r).renew s priority node.partition
        r).settle s ⟨priority, node.id⟩ resource r := by
  cases filling : node.reserve s.id priority r with
  | error e => simp [reserveAgain, filling] at answer
  | ok result =>
    obtain ⟨displaced, filled⟩ := result
    obtain rfl := reserve_displaces filling
    simp only [reserveAgain, filling] at answer
    obtain ⟨same, rfl⟩ := Prod.mk.inj answer
    obtain rfl := Except.ok.inj same
    exact ⟨rfl, filled, rfl, rfl⟩

theorem reserve_granted (answer : w.reserve a priority n existing container = .ok (r, w')) :
    ∃ s node, w.attempts.get? a = some s ∧ w.nodes.get? n = some node ∧
      s.live.get? container.id = none ∧
      w.reserveOver s priority node (s.reservations.get? ⟨priority, n⟩) existing container =
        (.ok r, w') := by
  rw [reserve_eq_ok, tryReserve] at answer
  split at answer
  · rename_i s node found offered
    split at answer
    · simp at answer
    · rename_i idle
      obtain ⟨granted, written⟩ := Prod.mk.inj answer
      exact ⟨s, node, found, offered, by simpa [Attempt.isLive, Table.contains] using idle,
        Prod.ext (mapError_ok.mp granted) written⟩
  · simp at answer

/-- A reservation that is granted is a new one, or the one that stood there made again. -/
theorem reserve_made (answer : w.reserve a priority n existing container = .ok (r, w')) :
    ∃ s node, w.attempts.get? a = some s ∧ w.nodes.get? n = some node ∧
      s.live.get? container.id = none ∧
      (w.reserveFresh s priority node container = (.ok r, w') ∨
        ∃ old, s.reservations.get? ⟨priority, n⟩ = some old ∧
          w.reserveAgain s priority node container.resource old = (.ok r, w')) := by
  obtain ⟨s, node, found, offered, idle, answer⟩ := reserve_granted answer
  refine ⟨s, node, found, offered, idle, ?_⟩
  unfold reserveOver at answer
  split at answer
  · rename_i old there
    split at answer
    · exact .inr ⟨old, there, answer⟩
    · exact .inl answer
  · exact .inl answer

end Made

theorem unreserve_lapses (coherent : w.Coherent) {priority : Priority} {n : NodeId} {r : RecordId}
    (before : w.attempts.get? a = some s) (found : s.reservations.get? ⟨priority, n⟩ = some r) :
    ∃ s', Lapses w (w.unreserve a priority n).2 a s s' ⟨priority, n⟩ r := by
  simp only [unreserve, before, found]
  exact ⟨_, retire_lapses coherent before found
    (f := fun s => { s with reReservations := s.reReservations.erase priority })
    ⟨rfl, rfl, rfl, rfl, rfl, rfl⟩⟩

theorem move_reseats (before : w.attempts.get? a = some s) {r : RecordId} (known : w.Knows r)
    (found : s.reservations.get? b = some r) (target : NodeId) (filled : Node) :
    ∃ s', Reseats w (((((w.addNode filled).updateNode b.node (·.vacate r)).unindex a b).updateRecord
      r fun record => record.reserve record.reservedResource target b.priority).index a
        ⟨b.priority, target⟩ r) a s s' b target r := by
  have turn := (((((turn_refl before).addNode filled).updateNode b.node (·.vacate r)).updateAttempt
    (f := fun s => { s with reservations := s.reservations.erase b }) rfl rfl rfl).updateRecord r
      fun record => record.reserve record.reservedResource target b.priority).updateAttempt
        (f := fun s => { s with reservations := s.reservations.insert ⟨b.priority, target⟩ r })
        rfl rfl rfl
  exact ⟨_, turn, found, rfl, rfl, rfl, fun x => updateRecord_knows _ r x _,
    fun x => updateRecord_record _ r x _ known⟩

theorem move_moves (sound : w.Sound) (before : w.attempts.get? a = some s) {r : RecordId}
    (found : s.reservations.get? b = some r) (offered : w.nodes.get? b.node = some node)
    {target : NodeId} {targetNode filled : Node} (wanted : w.nodes.get? target = some targetNode)
    (vacant : targetNode.reserveVacant a b.priority r = .ok filled) :
    ∃ s', Moves w (((((w.addNode filled).updateNode b.node (·.vacate r)).unindex a b).updateRecord r
      fun record => record.reserve record.reservedResource target b.priority).index a
        ⟨b.priority, target⟩ r) a s s' b target r := by
  have stands : w.reservation? a b = some r := by
    simp [reservation?, before, found]
  have slot : node.slot = some ⟨a, b.priority, r⟩ := by
    simpa [slot?, offered] using sound.agree.mpr stands
  have wide := sound.nodeNamed wanted
  have near := sound.nodeNamed offered
  have full : targetNode.slot = none ∧ filled.id = target ∧
      filled.slot = some ⟨a, b.priority, r⟩ := by
    unfold Node.reserveVacant at vacant
    split at vacant
    · rename_i free
      obtain rfl := Except.ok.inj vacant
      exact ⟨free, wide, rfl⟩
    · simp at vacant
  obtain ⟨free, named, filling⟩ := full
  -- A node is no target for its own reservation: its slot is not vacant.
  have apart : b.node ≠ target := by
    rintro rfl
    simp_all
  have nodes : ∀ n, ((w.addNode filled).updateNode b.node (·.vacate r)).nodes.get? n =
      if n = target then some filled
      else if n = b.node then some { node with slot := none } else w.nodes.get? n := by
    intro n
    simp only [updateNode_nodes, addNode_nodes, named, apart, ↓reduceIte, offered, Option.map_some]
    by_cases here : n = b.node
    · have elsewhere : n ≠ target := here ▸ apart
      simp [here, apart, Node.vacate, Node.heldBy, slot]
    · simp [here]
  obtain ⟨s', reseats⟩ := move_reseats before (sound.stands stands).1 found target filled
  refine ⟨s', reseats, ?_, ?_, ?_⟩
  · simp [slot?, wanted, free]
  · intro n other at_
    have given := (nodes n).symm.trans at_
    have old := @sound.nodeNamed n other
    grind
  · intro n
    have given : slot? _ n = _ := congrArg (·.bind Node.slot) (nodes n)
    refine given.trans ?_
    unfold slot?
    grind

end World
end ClusterLedger
