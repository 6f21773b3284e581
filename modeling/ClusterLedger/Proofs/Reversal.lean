import ClusterLedger.Proofs.Isolation
import ClusterLedger.Proofs.Relocation
import ClusterLedger.Proofs.ReservedMetric
/- Giving a reservation up undoes making it, whatever befell it in between: its nodes got other
   partitions, it was made again with the same size, or it moved. While it is outstanding, the books
   are those from before it with its size on top, in the partition that its record names. -/
namespace ClusterLedger

theorem Table.erase_insert_new {κ : Type u} {ν : Type v} [Ord κ] [Std.TransOrd κ]
    [Std.LawfulEqOrd κ] [DecidableEq κ] {t : Table κ ν} {k : κ} (v : ν) (absent : t.get? k = none) :
    (t.insert k v).erase k = t := by
  refine eq_of_lookup fun k' => ?_
  rw [lookup_erase, lookup_insert]
  split
  · rename_i same
    rw [same, absent]
  · rfl

namespace Usage

def Tidy (u : Usage) : Prop := ∀ p, u.partitions.get? p ≠ some {}

/-- The record is the same, but that partitions with blank figures may have left it. -/
def Trims (v u : Usage) : Prop := ∀ p, v.partitions.get? p = u.partitions.get? p ∨
  v.partitions.get? p = none ∧ u.partitions.get? p = some {}

structure Restores (v u : Usage) : Prop where
  figures : ∀ f p, v.get f p = u.get f p
  record : u.Tidy → v = u

def Takes (u : Usage) (f : Figure) (p : Partition) (r : Resource) : Prop :=
  ∀ d, (u.get f p).amount d + r.amount d ≤ d.capacity

variable {u v x : Usage} {f : Figure} {p : Partition} {r : Resource}

theorem trims_refl (u : Usage) : u.Trims u := fun _ => .inl rfl

theorem Trims.trans (first : v.Trims u) (next : x.Trims v) : x.Trims u := by
  intro p
  have one := first p
  have two := next p
  grind

theorem Trims.figures (trims : v.Trims u) (p : Partition) : v.figures p = u.figures p := by
  unfold Usage.figures
  rcases trims p with same | ⟨gone, blank⟩
  · rw [same]
  · rw [gone, blank]
    rfl

theorem Trims.restores (trims : v.Trims u) : v.Restores u where
  figures f p := congrArg (·.get f) (trims.figures p)
  record tidy := by
    have same : v.partitions = u.partitions :=
      Table.eq_of_lookup fun p => (trims p).resolve_right fun gone => tidy p gone.2
    cases v
    exact congrArg Usage.mk same

theorem Trims.takes (trims : v.Trims u) (takes : u.Takes f p r) : v.Takes f p r := by
  intro d
  rw [trims.restores.figures]
  exact takes d

theorem prune_put_trims (u : Usage) (p : Partition) :
    ((Usage.mk (u.partitions.insert p (u.figures p))).prune p).Trims u := by
  intro q
  have reads : u.figures p = (u.partitions.get? p).getD {} := rfl
  unfold prune
  simp only [Table.get?_insert_self, Option.some.injEq]
  by_cases here : q = p
  · subst here
    cases found : u.partitions.get? q <;> split <;> simp_all
  · split <;> simp [here]

/-- A figure that is raised and lowered again leaves the record as it was, but that a partition with
    blank figures is pruned. -/
theorem decrease_increase_trims (takes : u.Takes f p r) :
    ((u.increase f p r).decrease f p r).Trims u := by
  have restored : (u.increase f p r).assign f p (u.get f p) =
      Usage.mk (u.partitions.insert p (u.figures p)) := by
    have same : ((u.figures p).set f (u.get f p + r)).set f (u.get f p) = u.figures p := by
      cases f <;> rfl
    refine congrArg Usage.mk (Table.eq_of_lookup fun q => ?_)
    simp only [increase, assign, Usage.figures, Table.lookup_insert, ↓reduceIte, Option.getD_some]
    split
    · exact congrArg some same
    · rfl
  rw [decrease, get_increase, if_pos ⟨rfl, rfl⟩, Resource.add_sub_of_fits takes, restored]
  exact prune_put_trims u p

end Usage

theorem QueueMetrics.unreserving_reserving {m : QueueMetrics} {r : Resource}
    (fits : ∀ d, m.reserved.amount d + r.amount d ≤ d.capacity) :
    (m.reserving r).unreserving r = m := by
  simp [reserving, unreserving, Resource.add_sub_of_fits fits]

namespace World

def Charges (w : World) (s : Attempt) (u : Usage) : Prop :=
  u = s.usage ∨ ∃ queue, w.queues.get? s.queue = some queue ∧ u = queue.usage

/-- A reservation of this size in this partition fits on top of what is reserved already, in the
    figures of the attempt and of its queue and in the queue's metrics. -/
structure HasRoom (w : World) (a : AttemptId) (size : Resource) (p : Partition) : Prop where
  usage : ∀ {s u}, w.attempts.get? a = some s → w.Charges s u → u.Takes .reserved p size
  metrics : ∀ {s queue}, w.attempts.get? a = some s → w.queues.get? s.queue = some queue →
    ∀ d, queue.metrics.reserved.amount d + size.amount d ≤ d.capacity

/-- What can befall a reservation: nodes get partitions, its own handle reserves its node again with
    the same size, or it is asked to move. -/
def Handles (w : World) (a : AttemptId) (p : Priority) (r : RecordId) (size : Resource) : Call → Prop
  | .setPartition _ _ => True
  | .reserve a' p' n existing container =>
    a' = a ∧ p' = p ∧ n = (w.record r).node ∧ existing = some r ∧ container.resource = size
  | .move a' r' _ _ => a' = a ∧ r' = r
  | _ => False

/-- Between `w` and `m` a reservation was made and is outstanding. The books of `m` are those of `w`,
    trimmed, with the size of the reservation on top. -/
structure Outstanding (w m : World) (a : AttemptId) (s s' : Attempt) (p : Priority) (r : RecordId)
    (size : Resource) (trimmed : Usage → Usage) : Prop extends
    Turn w m a s s' (fun u => (trimmed u).increase .reserved (m.record r).partition size)
      (.reserving size) where
  trims : ∀ u, w.Charges s u → (trimmed u).Trims u
  sized : (m.record r).reservedResource = size
  room : w.HasRoom a size (m.record r).partition
  vacant : s.reservations.get? ⟨p, (m.record r).node⟩ = none
  index : s'.reservations = s.reservations.insert ⟨p, (m.record r).node⟩ r

/-- The index, the slots, the figures and the metrics are what they were, and so is everything of
    other attempts and queues. -/
structure Restored (w w' : World) (a : AttemptId) (p : Priority) : Prop where
  slots : ∀ n, w'.slot? n = w.slot? n
  attempt : ∀ {s}, w.attempts.get? a = some s → ∃ s', w'.attempts.get? a = some s' ∧
    s'.reservations = s.reservations ∧ s'.usage.Restores s.usage ∧ s'.reReserved p = 0
  queue : ∀ {s queue}, w.attempts.get? a = some s → w.queues.get? s.queue = some queue →
    ∃ queue', w'.queues.get? s.queue = some queue' ∧ queue'.metrics = queue.metrics ∧
      queue'.usage.Restores queue.usage
  beside : ∀ x, x ≠ a → w'.attempts.get? x = w.attempts.get? x
  besideQueue : ∀ q, (∀ s, w.attempts.get? a = some s → q ≠ s.queue) →
    w'.queues.get? q = w.queues.get? q

variable {w m m' : World} {a : AttemptId} {s s' s'' : Attempt} {p : Priority} {r : RecordId}
  {size : Resource} {trimmed : Usage → Usage}

theorem slots_of_index {w' : World} (sound : w.Sound) (sound' : w'.Sound)
    (same : ∀ a b, w'.reservation? a b = w.reservation? a b) (n : NodeId) :
    w'.slot? n = w.slot? n := by
  refine Option.ext fun ⟨a, p, r⟩ => ?_
  rw [sound'.agree, same, sound.agree]

theorem outstanding_reserves {b : Berth} {node : Node} {record : Record}
    (step : Reserves w m a s s' b node r record) (free : s.reservations.get? b = none)
    (sized : record.reservedResource = size) (room : w.HasRoom a size record.partition) :
    Outstanding w m a s s' b.priority r size id := by
  have written := record_own step.records
  have stands := step.stands.node
  have turn := step.toTurn
  rw [sized] at turn
  refine ⟨written ▸ turn, fun u _ => Usage.trims_refl u, written ▸ sized, written ▸ room, ?_, ?_⟩
  · rw [written, stands]
    exact free
  · rw [written, stands]
    exact step.reservations

theorem Outstanding.berth (out : Outstanding w m a s s' p r size trimmed) :
    s'.reservations.get? ⟨p, (m.record r).node⟩ = some r := by
  rw [out.index, Table.get?_insert_self]

theorem Outstanding.stands (out : Outstanding w m a s s' p r size trimmed) :
    m.reservation? a ⟨p, (m.record r).node⟩ = some r := by
  rw [out.toTurn.reservation?, if_pos rfl, out.berth]

theorem Outstanding.lowered (out : Outstanding w m a s s' p r size trimmed) (u : Usage)
    (charged : w.Charges s u) : (((trimmed u).increase .reserved (m.record r).partition
      size).decrease .reserved (m.record r).partition size).Trims u :=
  have trims := out.trims u charged
  trims.trans (Usage.decrease_increase_trims (trims.takes (out.room.usage out.before charged)))

theorem Outstanding.elsewhere (out : Outstanding w m a s s' p r size trimmed)
    (attempts : m'.attempts = m.attempts) (queues : m'.queues = m.queues)
    (records : m'.record r = m.record r) : Outstanding w m' a s s' p r size trimmed := by
  refine ⟨?_, out.trims, ?_, ?_, ?_, ?_⟩
  · rw [records]
    exact out.toTurn.elsewhere attempts queues
  · rw [records, out.sized]
  · rw [records]
    exact out.room
  · rw [records]
    exact out.vacant
  · rw [records]
    exact out.index

theorem Outstanding.resizes {b : Berth} {partition : Partition}
    (out : Outstanding w m a s s' p r size trimmed) (here : b = ⟨p, (m.record r).node⟩)
    (step : Resizes m m' a s' s'' b r partition size)
    (room : w.HasRoom a size (m'.record r).partition) :
    ∃ trimmed', Outstanding w m' a s s'' p r size trimmed' := by
  have written := record_own step.records
  have partition' : (m'.record r).partition = partition := by rw [written]; rfl
  have node' : (m'.record r).node = (m.record r).node := by
    rw [written, here]
    rfl
  have turn := out.toTurn.then step.toTurn
  rw [out.sized] at turn
  refine ⟨fun u => ((trimmed u).increase .reserved (m.record r).partition size).decrease .reserved
    (m.record r).partition size, partition' ▸ turn, out.lowered, ?_, room, ?_, ?_⟩
  · rw [written]
    rfl
  · rw [node']
    exact out.vacant
  · rw [node', step.reservations]
    exact out.index

theorem Outstanding.moves {p' : Priority} {source target : NodeId} (sound : m.Sound)
    (out : Outstanding w m a s s' p r size trimmed) (movable : m.Movable a p' r source target)
    (step : Relocated m m' a p' r source target) :
    ∃ s'', Outstanding w m' a s s'' p r size trimmed := by
  have same := (sound.berth_unique movable.indexed out.stands).2
  obtain ⟨rfl, rfl⟩ := Berth.mk.inj same
  have apart := movable.apart sound
  have before : m.attempts.get? a = some s' := (out.toTurn.attempts a).trans (if_pos rfl)
  have written := (step.records r).trans (if_pos rfl)
  have partition' : (m'.record r).partition = (m.record r).partition := by rw [written]
  have node' : (m'.record r).node = target := by rw [written]
  have turn := out.toTurn.then (step.turn before)
  rw [← partition'] at turn
  refine ⟨_, turn, out.trims, ?_, partition' ▸ out.room, ?_, ?_⟩
  · rw [written]
    exact out.sized
  · have unindexed := movable.unindexed sound
    rw [out.toTurn.reservation?, if_pos rfl, out.index, Table.lookup_insert,
      if_neg (by simpa using Ne.symm apart)] at unindexed
    rwa [node']
  · simp only [node', out.index, Table.erase_insert_new r out.vacant]

/-- The only call that writes to an outstanding reservation without moving it is one that reserves
    its node again, and that is refused where a live container has the name. -/
theorem reserve_refused {n : NodeId} {existing : Option RecordId} {container : Container}
    (live : m.running? a container.id ≠ none) :
    m.perform (.reserve a p n existing container) = m := by
  obtain ⟨x, runs⟩ := Option.ne_none_iff_exists'.mp live
  obtain ⟨s, before, found⟩ := Option.bind_eq_some_iff.mp runs
  cases offered : m.nodes.get? n <;>
    simp [perform, tryReserve, before, offered, Attempt.isLive, Table.contains, found]

theorem Outstanding.perform (sound : m.Sound) (out : Outstanding w m a s s' p r size trimmed)
    {c : Call} (handles : m.Handles a p r size c)
    (room : w.HasRoom a size ((m.perform c).record r).partition) :
    ∃ s'' trimmed', Outstanding w (m.perform c) a s s'' p r size trimmed' := by
  cases c with
  | setPartition n partition => exact ⟨s', trimmed, out.elsewhere rfl rfl rfl⟩
  | reserve a' p' n existing container =>
    obtain ⟨rfl, rfl, rfl, rfl, rfl⟩ := handles
    by_cases idFree : m.running? a' container.id = none
    · obtain ⟨t, t', partition, step⟩ := reserve_resizes sound idFree out.stands
      obtain rfl : t = s' := by
        have before := (out.toTurn.attempts a').trans (if_pos rfl)
        exact Option.some.inj (step.before.symm.trans before)
      exact ⟨t', out.resizes rfl step room⟩
    · rw [reserve_refused idFree]
      exact ⟨s', trimmed, out⟩
  | move a' r' source target =>
    obtain ⟨rfl, rfl⟩ := handles
    rcases move_refused_or_movable m a' r' source target with refused | ⟨p', movable⟩
    · simp only [World.perform, refused]
      exact ⟨s', trimmed, out⟩
    · obtain ⟨m', answer, step⟩ := move_relocates sound movable
      simp only [World.perform, answer]
      obtain ⟨s'', moved⟩ := out.moves sound movable step
      exact ⟨s'', trimmed, moved⟩
  | _ => exact handles.elim

theorem unreserve_answers (coherent : m.Coherent) (before : m.attempts.get? a = some s) {n : NodeId}
    (found : s.reservations.get? ⟨p, n⟩ = some r) :
    ∃ m' s', m.unreserve a p n = (true, m') ∧ Lapses m m' a s s' ⟨p, n⟩ r ∧ s'.reReserved p = 0 := by
  have lapses := retire_lapses coherent before found
    (f := fun s => { s with reReservations := s.reReservations.erase p })
    ⟨rfl, rfl, rfl, rfl, rfl, rfl⟩
  refine ⟨_, _, ?_, lapses, ?_⟩
  · simp only [unreserve, before, found]
  · simp [Attempt.reReserved, Attempt.without]

theorem Outstanding.unreserve (sound : w.Sound) (sound' : m.Sound)
    (out : Outstanding w m a s s' p r size trimmed) :
    ∃ w', m.unreserve a p (m.record r).node = (true, w') ∧ Restored w w' a p := by
  have before : m.attempts.get? a = some s' := (out.toTurn.attempts a).trans (if_pos rfl)
  obtain ⟨w', s'', answer, lapses, forgotten⟩ :=
    unreserve_answers sound'.toCoherent before out.berth
  have turn := out.toTurn.then lapses.toTurn
  rw [out.sized] at turn
  have index : s''.reservations = s.reservations := by
    rw [lapses.reservations, out.index, Table.erase_insert_new r out.vacant]
  have ended : w'.Sound := by
    have performed := sound'.perform (.unreserve a p (m.record r).node)
    rwa [World.perform, answer] at performed
  refine ⟨w', answer, ?_, ?_, ?_, ?_, ?_⟩
  · exact slots_of_index sound ended (turn.reservation?_same index)
  · intro t found
    obtain rfl := Option.some.inj (found.symm.trans out.before)
    refine ⟨s'', (turn.attempts a).trans (if_pos rfl), index, ?_, forgotten⟩
    rw [turn.usage]
    exact (out.lowered t.usage (.inl rfl)).restores
  · intro t queue found standing
    obtain rfl := Option.some.inj (found.symm.trans out.before)
    refine ⟨_, (turn.queues t.queue).trans ((if_pos rfl).trans (congrArg _ standing)), ?_, ?_⟩
    · exact QueueMetrics.unreserving_reserving (out.room.metrics found standing)
    · exact (out.lowered queue.usage (.inr ⟨queue, standing, rfl⟩)).restores
  · intro x other
    rw [turn.attempts, if_neg other]
  · intro q other
    rw [turn.queues, if_neg (other s out.before)]

theorem reserveFresh_sized {node : Node} {container : Container}
    (answer : w.reserveFresh s p node container = (.ok r, m)) (vacant : node.slot = none) :
    (m.record r).reservedResource = container.resource := by
  obtain ⟨fresh, filled, _, taken, _, rfl⟩ := reserveFresh_made answer
  rw [vacant]
  refine congrArg (·.reservedResource) ((settle_record ?_ _ _ r).trans (if_pos rfl))
  exact (addRecord_knows w r fresh).mpr (.inr taken.symm)

theorem reserve_outstanding (sound : w.Sound) {n : NodeId} {container : Container}
    (vacant : w.slot? n = none) (answer : w.reserve a p n none container = .ok (r, m))
    (room : w.HasRoom a container.resource (m.record r).partition) :
    ∃ s s' trimmed, Outstanding w m a s s' p r container.resource trimmed := by
  obtain ⟨s, node, before, offered, idFree, made⟩ := reserve_made answer
  have free : s.reservations.get? ⟨p, n⟩ = none := by
    cases found : s.reservations.get? ⟨p, n⟩ with
    | none => rfl
    | some old =>
      have held := sound.agree.mpr (show w.reservation? a ⟨p, n⟩ = some old by
        simp [reservation?, before, found])
      simp [vacant] at held
  have empty : node.slot = none := by
    simpa [slot?, offered] using vacant
  have fresh : w.reserveFresh s p node container = (.ok r, m) := by
    refine made.resolve_right ?_
    rintro ⟨old, found, _⟩
    simp [free] at found
  obtain ⟨r', m', s', record, given, step⟩ :=
    reserveFresh_vacant (b := ⟨p, n⟩) sound before offered idFree empty
  obtain ⟨same, rfl⟩ := Prod.mk.inj (given.symm.trans fresh)
  obtain rfl := Except.ok.inj same
  have sized := reserveFresh_sized fresh empty
  rw [record_own step.records] at room sized
  exact ⟨s, s', id, outstanding_reserves step free sized room⟩

/-- A reservation of a vacant node that is made and later given up leaves everything as it was
    before: the index of its attempt, all slots, the figures of the attempt and of its queue in every
    partition, and the queue's metrics. In between, nodes may get other partitions and the
    reservation may be made again with its size and move, in any order, as long as it fits on top of
    what was reserved before wherever it is accounted. -/
theorem unreserve_reverses_reserve {start : World} (opening : start.Opening) (past : List Call)
    {a : AttemptId} {p : Priority} {n : NodeId} {container : Container} {r : RecordId} {m : World}
    (vacant : (start.after past).slot? n = none)
    (answer : (start.after past).reserve a p n none container = .ok (r, m))
    (room : (start.after past).HasRoom a container.resource (m.record r).partition)
    {calls : List Call} (along : m.Along (fun m c => m.Handles a p r container.resource c ∧
      (start.after past).HasRoom a container.resource ((m.perform c).record r).partition) calls) :
    ∃ w', (m.after calls).unreserve a p ((m.after calls).record r).node = (true, w') ∧
      Restored (start.after past) w' a p := by
  have sound : (start.after past).Sound := opening.sound.after past
  have made : m.Sound := by
    have performed := sound.perform (.reserve a p n none container)
    rwa [perform_reserved answer] at performed
  obtain ⟨s, s', trimmed, out⟩ := reserve_outstanding sound vacant answer room
  have kept : (m.after calls).Sound ∧ ∃ s' trimmed,
      Outstanding (start.after past) (m.after calls) a s s' p r container.resource trimmed := by
    refine along.preserves (fun m => m.Sound ∧ ∃ s' trimmed,
      Outstanding (start.after past) m a s s' p r container.resource trimmed) ?_
      ⟨made, s', trimmed, out⟩
    rintro m c ⟨sound', s', trimmed, out⟩ ⟨handles, room⟩
    exact ⟨sound'.perform c, out.perform sound' handles room⟩
  obtain ⟨ended, s'', trimmed', out'⟩ := kept
  exact out'.unreserve sound ended

theorem Opening.hasRoom (opening : w.Opening) (a : AttemptId) (size : Resource) (p : Partition) :
    w.HasRoom a size p := by
  have fits : ∀ d, Resource.zero.amount d + size.amount d ≤ d.capacity := by
    intro d
    rw [Resource.amount_zero, Nat.zero_add]
    exact size.amount_le_capacity d
  constructor
  · intro s u found charged d
    have bare : u.get .reserved p = .zero := by
      rcases charged with rfl | ⟨queue, standing, rfl⟩
      · rw [(opening.attempts found).2.1.usage, Usage.get_assign, if_neg (by simp)]
        rfl
      · rw [opening.queues standing]
        rfl
    rw [bare]
    exact fits d
  · intro s queue _ standing d
    rw [opening.queues standing]
    exact fits d

/-- Both nodes change their partition, the reservation is made again in the new one and moves, and is
    given up on the other node. -/
theorem unreserve_reverses_reserve_sample :
    let container : Container := ⟨⟨"c1"⟩, ⟨"n1"⟩, ⟨4096, 1⟩, ⟨1⟩, false, none⟩
    let m := sample.perform (.reserve ⟨"a"⟩ ⟨1⟩ ⟨"n1"⟩ none container)
    let calls : List Call := [.setPartition ⟨"n1"⟩ "x", .setPartition ⟨"n2"⟩ "x",
      .reserve ⟨"a"⟩ ⟨1⟩ ⟨"n1"⟩ (some ⟨0⟩) container, .move ⟨"a"⟩ ⟨0⟩ ⟨"n1"⟩ ⟨"n2"⟩]
    sample.reserve ⟨"a"⟩ ⟨1⟩ ⟨"n1"⟩ none container = .ok (⟨0⟩, m) ∧
      (m.after calls).slot? ⟨"n2"⟩ = some ⟨⟨"a"⟩, ⟨1⟩, ⟨0⟩⟩ ∧
      ((m.after calls).record ⟨0⟩).partition = "x" ∧
      ∃ w', (m.after calls).unreserve ⟨"a"⟩ ⟨1⟩ ⟨"n2"⟩ = (true, w') ∧
        Restored sample w' ⟨"a"⟩ ⟨1⟩ := by
  intro container m calls
  have room := sample_opening.hasRoom ⟨"a"⟩ container.resource
  have answer : sample.reserve ⟨"a"⟩ ⟨1⟩ ⟨"n1"⟩ none container = .ok (⟨0⟩, m) := rfl
  have along : m.Along (fun m c => m.Handles ⟨"a"⟩ ⟨1⟩ ⟨0⟩ container.resource c ∧
      sample.HasRoom ⟨"a"⟩ container.resource ((m.perform c).record ⟨0⟩).partition) calls :=
    ⟨⟨trivial, room _⟩, ⟨trivial, room _⟩, ⟨⟨rfl, rfl, by decide, rfl, rfl⟩, room _⟩,
      ⟨⟨rfl, rfl⟩, room _⟩, trivial⟩
  have seated : ((m.after calls).record ⟨0⟩).node = ⟨"n2"⟩ := by decide
  have restored := unreserve_reverses_reserve sample_opening [] (by decide) answer (room _) along
  rw [seated] at restored
  exact ⟨answer, by decide, by decide, restored⟩

end World
end ClusterLedger
