import ClusterLedger.Proofs.Access
import ClusterLedger.Proofs.Run
/- The few ways in which books change. Each is told by what can be read before and after, so that
   what holds of all of them is proved without opening an operation. -/
namespace ClusterLedger

namespace Usage

def enter (u : Usage) (p : Partition) (r : Record) : Usage :=
  let u := u.increase .used p r.resource
  if r.isMaster then u.increase .amUsed p r.resource else u

def leave (u : Usage) (p : Partition) (r : Record) : Usage :=
  let u := u.decrease .used p r.resource
  if r.isMaster then u.decrease .amUsed p r.resource else u

def cross (u : Usage) (old new : Partition) (r : Record) : Usage :=
  let u := (u.decrease .used old r.resource).increase .used new r.resource
  if r.isMaster then (u.decrease .amUsed old r.resource).increase .amUsed new r.resource else u

end Usage

namespace QueueMetrics

def reserving (r : Resource) (m : QueueMetrics) : QueueMetrics :=
  { m with reservedContainers := m.reservedContainers + 1, reserved := m.reserved + r }

def unreserving (r : Resource) (m : QueueMetrics) : QueueMetrics :=
  { m with reservedContainers := m.reservedContainers - 1, reserved := m.reserved - r }

def releasing (r : Resource) (m : QueueMetrics) : QueueMetrics :=
  { m with releasedContainers := m.releasedContainers + 1, released := m.released + r }

end QueueMetrics

structure Record.StandsAt (r : Record) (a : AttemptId) (b : Berth) : Prop where
  owner : r.attempt = a
  state : r.state = .reserved
  priority : r.reservedPriority = some b.priority
  node : r.node = b.node

/-- The record of a container that is live under its name. Such a record was never reserved. -/
structure Record.RunsAs (r : Record) (a : AttemptId) (id : ContainerId) : Prop where
  owner : r.attempt = a
  named : r.id = id
  unplaced : r.reservedPriority = none

structure Attempt.KeepsBooks (s' s : Attempt) : Prop where
  named : s'.id = s.id
  queue : s'.queue = s.queue
  usage : s'.usage = s.usage
  live : s'.live = s.live
  undelivered : s'.undelivered = s.undelivered
  reservations : s'.reservations = s.reservations

namespace World

/-- One attempt's books change, and its queue takes the same postings. -/
structure Turn (w w' : World) (a : AttemptId) (s s' : Attempt) (postings : Usage → Usage)
    (notes : QueueMetrics → QueueMetrics) : Prop where
  before : w.attempts.get? a = some s
  attempts : ∀ b, w'.attempts.get? b = if b = a then some s' else w.attempts.get? b
  queues : ∀ q, w'.queues.get? q =
    if q = s.queue then (w.queues.get? s.queue).map fun queue =>
      { queue with usage := postings queue.usage, metrics := notes queue.metrics }
    else w.queues.get? q
  named : s'.id = s.id
  queue : s'.queue = s.queue
  usage : s'.usage = postings s.usage

structure Begins (w w' : World) (a : AttemptId) (s s' : Attempt) (r : RecordId) (record : Record) :
    Prop extends Turn w w' a s s' (·.enter record.partition record) id where
  idFree : s.live.get? record.id = none
  unreserved : w.isReserved s record.id = false
  runs : record.RunsAs a record.id
  allocated : record.state = .allocated
  live : s'.live = s.live.insert record.id r
  undelivered : s'.undelivered = s.undelivered ++ [r]
  reservations : s'.reservations = s.reservations
  nodes : w'.nodes = w.nodes
  fresh : ¬ w.Knows r
  knows : ∀ x, w'.Knows x ↔ w.Knows x ∨ x = r
  records : ∀ x, w'.record x = if x = r then record else w.record x

structure Ends (w w' : World) (a : AttemptId) (s s' : Attempt) (c : ContainerId) (r : RecordId)
    (partition : Partition) (report : ExitReport) (ending : Ending) : Prop extends
    Turn w w' a s s' (·.leave partition (w.record r)) (.releasing (w.record r).resource) where
  found : s.live.get? c = some r
  live : s'.live = s.live.erase c
  undelivered : s'.undelivered = s.undelivered.filter fun u => (w.record u).id != c
  reservations : s'.reservations = s.reservations
  nodes : w'.nodes = w.nodes
  knows : ∀ x, w'.Knows x ↔ w.Knows x
  records : ∀ x, w'.record x = if x = r then (w.record r).finish report ending else w.record x

structure Relabels (w w' : World) (a : AttemptId) (s s' : Attempt) (c : ContainerId) (r : RecordId)
    (new : Partition) : Prop extends
    Turn w w' a s s' (·.cross (w.record r).partition new (w.record r)) id where
  found : s.live.get? c = some r
  apart : (w.record r).partition ≠ new
  live : s'.live = s.live
  undelivered : s'.undelivered = s.undelivered
  reservations : s'.reservations = s.reservations
  nodes : w'.nodes = w.nodes
  knows : ∀ x, w'.Knows x ↔ w.Knows x
  records : ∀ x, w'.record x = if x = r then { w.record r with partition := new } else w.record x

structure Enlists (w w' : World) (a : AttemptId) (s s' : Attempt) (b : Berth) (r : RecordId)
    (record : Record) : Prop extends
    Turn w w' a s s' (·.increase .reserved record.partition record.reservedResource)
      (.reserving record.reservedResource) where
  idFree : s.live.get? record.id = none
  stands : record.StandsAt a b
  live : s'.live = s.live
  undelivered : s'.undelivered = s.undelivered
  reservations : s'.reservations = s.reservations.insert b r
  fresh : ¬ w.Knows r
  knows : ∀ x, w'.Knows x ↔ w.Knows x ∨ x = r
  records : ∀ x, w'.record x = if x = r then record else w.record x

structure Reserves (w w' : World) (a : AttemptId) (s s' : Attempt) (b : Berth) (node : Node)
    (r : RecordId) (record : Record) : Prop extends Enlists w w' a s s' b r record where
  offered : w.nodes.get? b.node = some node
  vacant : node.slot = none
  nodes : ∀ n, w'.nodes.get? n =
    if n = b.node then some { node with slot := some ⟨a, b.priority, r⟩ } else w.nodes.get? n

/-- A reservation leaves the books; its record stays as it is. -/
structure Drops (w w' : World) (a : AttemptId) (s s' : Attempt) (b : Berth) (r : RecordId) : Prop
    extends Turn w w' a s s'
      (·.decrease .reserved (w.record r).partition (w.record r).reservedResource)
      (.unreserving (w.record r).reservedResource) where
  found : s.reservations.get? b = some r
  live : s'.live = s.live
  undelivered : s'.undelivered = s.undelivered
  reservations : s'.reservations = s.reservations.erase b
  knows : ∀ x, w'.Knows x ↔ w.Knows x
  records : ∀ x, w'.record x = w.record x

structure Lapses (w w' : World) (a : AttemptId) (s s' : Attempt) (b : Berth) (r : RecordId) : Prop
    extends Drops w w' a s s' b r where
  nodes : ∀ n, w'.nodes.get? n =
    if n = b.node then (w.nodes.get? b.node).map (·.vacate r) else w.nodes.get? n

/-- A reservation is made again in the books, with another size and partition. -/
structure Remakes (w w' : World) (a : AttemptId) (s s' : Attempt) (b : Berth) (r : RecordId)
    (partition : Partition) (resource : Resource) : Prop extends
    Turn w w' a s s' (fun u =>
      (u.decrease .reserved (w.record r).partition (w.record r).reservedResource).increase
        .reserved partition resource) id where
  found : s.reservations.get? b = some r
  live : s'.live = s.live
  undelivered : s'.undelivered = s.undelivered
  reservations : s'.reservations = s.reservations
  knows : ∀ x, w'.Knows x ↔ w.Knows x
  records : ∀ x, w'.record x =
    if x = r then { w.record r with partition }.reserve resource b.node b.priority else w.record x

structure Resizes (w w' : World) (a : AttemptId) (s s' : Attempt) (b : Berth) (r : RecordId)
    (partition : Partition) (resource : Resource) : Prop extends
    Remakes w w' a s s' b r partition resource where
  nodes : w'.nodes = w.nodes

structure Reseats (w w' : World) (a : AttemptId) (s s' : Attempt) (b : Berth) (target : NodeId)
    (r : RecordId) : Prop extends Turn w w' a s s' id id where
  found : s.reservations.get? b = some r
  live : s'.live = s.live
  undelivered : s'.undelivered = s.undelivered
  reservations : s'.reservations = (s.reservations.erase b).insert ⟨b.priority, target⟩ r
  knows : ∀ x, w'.Knows x ↔ w.Knows x
  records : ∀ x, w'.record x =
    if x = r then (w.record r).reserve (w.record r).reservedResource target b.priority
    else w.record x

structure Moves (w w' : World) (a : AttemptId) (s s' : Attempt) (b : Berth) (target : NodeId)
    (r : RecordId) : Prop extends Reseats w w' a s s' b target r where
  vacant : w.slot? target = none
  filed : ∀ n node, w'.nodes.get? n = some node → node.id = n
  slots : ∀ n, w'.slot? n =
    if n = target then some ⟨a, b.priority, r⟩ else if n = b.node then none else w.slot? n

structure Delivers (w w' : World) (a : AttemptId) (s s' : Attempt) : Prop
    extends Turn w w' a s s' id id where
  live : s'.live = s.live
  undelivered : s'.undelivered = []
  reservations : s'.reservations = s.reservations
  nodes : w'.nodes = w.nodes
  knows : ∀ x, w'.Knows x ↔ w.Knows x
  records : ∀ x, w'.record x = if x ∈ s.undelivered then (w.record x).acquire else w.record x

structure Notes (w w' : World) (a : AttemptId) (s s' : Attempt) : Prop
    extends Turn w w' a s s' id id, s'.KeepsBooks s where
  nodes : w'.nodes = w.nodes
  knows : ∀ x, w'.Knows x ↔ w.Knows x
  records : ∀ x, w'.record x = w.record x

/-- Nothing happens but to labels and claims of nodes, and to the clock. -/
structure Tends (w w' : World) : Prop where
  attempts : w'.attempts = w.attempts
  queues : w'.queues = w.queues
  filed : (∀ n node, w.nodes.get? n = some node → node.id = n) →
    ∀ n node, w'.nodes.get? n = some node → node.id = n
  slots : ∀ n, w'.slot? n = w.slot? n
  knows : ∀ x, w'.Knows x ↔ w.Knows x
  records : ∀ x, w'.record x = w.record x

/- How a turn grows, one write after another. -/
section Writing
variable {w m w' : World} {a : AttemptId} {s s' : Attempt} {postings : Usage → Usage}
  {notes : QueueMetrics → QueueMetrics}

theorem turn_refl (before : w.attempts.get? a = some s) : Turn w w a s s id id where
  before := before
  attempts b := by
    split
    · rename_i same
      rw [same, before]
    · rfl
  queues q := by
    split
    · rename_i same
      rw [same]
      cases w.queues.get? s.queue <;> rfl
    · rfl
  named := rfl
  queue := rfl
  usage := rfl

theorem Turn.elsewhere {m' : World} (turn : Turn w m a s s' postings notes)
    (attempts : m'.attempts = m.attempts) (queues : m'.queues = m.queues) :
    Turn w m' a s s' postings notes where
  before := turn.before
  attempts := attempts ▸ turn.attempts
  queues := queues ▸ turn.queues
  named := turn.named
  queue := turn.queue
  usage := turn.usage

theorem Turn.addRecord (turn : Turn w m a s s' postings notes) (record : Record) :
    Turn w (m.addRecord record).2 a s s' postings notes :=
  turn.elsewhere rfl rfl

theorem Turn.updateRecord (turn : Turn w m a s s' postings notes) (r : RecordId)
    (f : Record → Record) : Turn w (m.updateRecord r f) a s s' postings notes :=
  turn.elsewhere rfl rfl

theorem Turn.addNode (turn : Turn w m a s s' postings notes) (node : Node) :
    Turn w (m.addNode node) a s s' postings notes :=
  turn.elsewhere rfl rfl

theorem Turn.updateNode (turn : Turn w m a s s' postings notes) (n : NodeId) (f : Node → Node) :
    Turn w (m.updateNode n f) a s s' postings notes :=
  turn.elsewhere rfl rfl

theorem Turn.updateAttempt {f : Attempt → Attempt} (turn : Turn w m a s s' postings notes)
    (named : (f s').id = s'.id) (queue : (f s').queue = s'.queue)
    (usage : (f s').usage = s'.usage) : Turn w (m.updateAttempt a f) a s (f s') postings notes where
  before := turn.before
  attempts b := by
    simp only [updateAttempt_attempts, turn.attempts, ↓reduceIte, Option.map_some]
    split <;> rfl
  queues := turn.queues
  named := named.trans turn.named
  queue := queue.trans turn.queue
  usage := usage.trans turn.usage

theorem Turn.increase (turn : Turn w m a s s' postings notes) (named : s.id = a) (g : Figure)
    (p : Partition) (r : Resource) :
    Turn w (m.increase s g p r) a s { s' with usage := s'.usage.increase g p r }
      (fun u => (postings u).increase g p r) notes where
  before := turn.before
  attempts b := by
    simp only [increase_attempts, named, turn.attempts, ↓reduceIte, Option.map_some]
    split <;> rfl
  queues q := by
    simp only [increase_queues, turn.queues, ↓reduceIte, Option.map_map]
    split <;> rfl
  named := turn.named
  queue := turn.queue
  usage := congrArg (·.increase g p r) turn.usage

theorem Turn.decrease (turn : Turn w m a s s' postings notes) (named : s.id = a) (g : Figure)
    (p : Partition) (r : Resource) :
    Turn w (m.decrease s g p r) a s { s' with usage := s'.usage.decrease g p r }
      (fun u => (postings u).decrease g p r) notes where
  before := turn.before
  attempts b := by
    simp only [decrease_attempts, named, turn.attempts, ↓reduceIte, Option.map_some]
    split <;> rfl
  queues q := by
    simp only [decrease_queues, turn.queues, ↓reduceIte, Option.map_map]
    split <;> rfl
  named := turn.named
  queue := turn.queue
  usage := congrArg (·.decrease g p r) turn.usage

theorem Turn.updateQueue (turn : Turn w m a s s' postings notes) (f : Queue → Queue)
    (note : QueueMetrics → QueueMetrics) (same : ∀ q, f q = { q with metrics := note q.metrics }) :
    Turn w (m.updateQueue s.queue f) a s s' postings (fun x => note (notes x)) where
  before := turn.before
  attempts := turn.attempts
  queues q := by
    simp only [updateQueue_queues, turn.queues, ↓reduceIte, Option.map_map]
    split
    · congr 1
      funext queue
      exact same _
    · rfl
  named := turn.named
  queue := turn.queue
  usage := turn.usage

theorem Turn.posted {other : Usage → Usage} (turn : Turn w m a s s' postings notes)
    (same : ∀ u, postings u = other u) : Turn w m a s s' other notes :=
  funext same ▸ turn

theorem Turn.rest {s'' : Attempt} {more : Usage → Usage} {further : QueueMetrics → QueueMetrics}
    (first : Turn w m a s s' postings notes)
    (whole : Turn w w' a s s'' (fun u => more (postings u)) fun x => further (notes x)) :
    Turn m w' a s' s'' more further where
  before := by
    rw [first.attempts, if_pos rfl]
  attempts b := by
    rw [whole.attempts, first.attempts]
    split <;> rfl
  queues q := by
    simp only [whole.queues, first.queues, first.queue, ↓reduceIte, Option.map_map]
    split <;> rfl
  named := whole.named.trans first.named.symm
  queue := whole.queue.trans first.queue.symm
  usage := by
    rw [whole.usage, first.usage]

end Writing

end World
end ClusterLedger
