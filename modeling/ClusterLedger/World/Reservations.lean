import ClusterLedger.World
/- Reservations: a node's slot, the attempt's index, the record and the figures move together. -/
namespace ClusterLedger.World

/-- Adds a reservation to the figures, under the partition on its record. -/
def account (w : World) (s : Attempt) (r : RecordId) : World :=
  w.increase s .reserved (w.record r).partition (w.record r).reservedResource

def unaccount (w : World) (s : Attempt) (r : RecordId) : World :=
  w.decrease s .reserved (w.record r).partition (w.record r).reservedResource

def index (w : World) (a : AttemptId) (berth : Berth) (r : RecordId) : World :=
  w.updateAttempt a fun s => { s with reservations := s.reservations.insert berth r }

def unindex (w : World) (a : AttemptId) (berth : Berth) : World :=
  w.updateAttempt a fun s => { s with reservations := s.reservations.erase berth }

def retire (w : World) (s : Attempt) (berth : Berth) (r : RecordId) : World :=
  ((w.unindex s.id berth).unaccount s r).updateQueue s.queue
    (·.uncountReservation (w.record r).reservedResource)

/-- The slot held another reservation of the attempt, perhaps at another priority: it is gone, so
    its index entry goes too. -/
def retireDisplaced (w : World) (s : Attempt) (n : NodeId) (displaced : Option Slot) (r : RecordId) :
    World :=
  match displaced with
  | none => w
  | some held =>
    if held.record = r then w
    else
      match s.reservations.get? ⟨held.priority, n⟩ with
      | none => w
      | some old => w.retire s ⟨held.priority, n⟩ old

def settle (w : World) (s : Attempt) (berth : Berth) (resource : Resource) (r : RecordId) : World :=
  ((w.updateRecord r (·.reserve resource berth.node berth.priority)).account s r).index s.id berth r

/-- Reserves a node for a record that is not in the index yet; a refusal drops the record again. -/
def reserveFresh (w : World) (s : Attempt) (priority : Priority) (node : Node)
    (container : Container) : Except SlotOccupied RecordId × World :=
  let fresh := Record.make container s.id s.user node.partition
  let (r, recorded) := w.addRecord fresh
  match node.reserve s.id priority r with
  | .error occupied => (.error occupied, w)
  | .ok (displaced, filled) =>
    let w := (recorded.addNode filled).retireDisplaced s node.id displaced r
    let w := w.updateQueue s.queue (·.countReservation container.resource)
    (.ok r, w.settle s ⟨priority, node.id⟩ container.resource r)

/-- Reserves a node again for the record that the index has there, with a new size and the
    partition that the node has now. -/
def reserveAgain (w : World) (s : Attempt) (priority : Priority) (node : Node) (resource : Resource)
    (r : RecordId) : Except SlotOccupied RecordId × World :=
  match node.reserve s.id priority r with
  | .error occupied => (.error occupied, w)
  | .ok (displaced, filled) =>
    let w := (w.addNode filled).retireDisplaced s node.id displaced r
    let w := (w.unaccount s r).updateRecord r fun record => { record with partition := node.partition }
    let w := w.updateAttempt s.id (·.countReReservation priority)
    (.ok r, w.settle s ⟨priority, node.id⟩ resource r)

/-- `existing` counts only if it is the very record that stands in the index there. -/
def reserveOver (w : World) (s : Attempt) (priority : Priority) (node : Node)
    (standing existing : Option RecordId) (container : Container) :
    Except SlotOccupied RecordId × World :=
  match standing with
  | some r =>
    if existing = some r then w.reserveAgain s priority node container.resource r
    else w.reserveFresh s priority node container
  | none => w.reserveFresh s priority node container

def tryReserve (w : World) (a : AttemptId) (priority : Priority) (n : NodeId)
    (existing : Option RecordId) (container : Container) : Except LedgerError RecordId × World :=
  match w.attempts.get? a, w.nodes.get? n with
  | some s, some node =>
    if s.isLive container.id then (.error (.containerLive container.id), w)
    else
      let standing := s.reservations.get? ⟨priority, n⟩
      let (outcome, w) := w.reserveOver s priority node standing existing container
      (outcome.mapError .node, w)
  | _, _ => (.error (.nodeNotFound n), w)

/-- The same for a caller that stops at an error. -/
def reserve (w : World) (a : AttemptId) (priority : Priority) (n : NodeId)
    (existing : Option RecordId) (container : Container) : Except LedgerError (RecordId × World) :=
  let (outcome, w) := w.tryReserve a priority n existing container
  outcome.map (·, w)

def unreserve (w : World) (a : AttemptId) (priority : Priority) (n : NodeId) : Bool × World :=
  match w.attempts.get? a with
  | none => (false, w)
  | some s =>
    match s.reservations.get? ⟨priority, n⟩ with
    | none => (false, w)
    | some r =>
      let w := w.updateAttempt a fun s => { s with reReservations := s.reReservations.erase priority }
      (true, (w.retire s ⟨priority, n⟩ r).updateNode n (·.vacate r))

def moveReservation (w : World) (a : AttemptId) (r : RecordId) (source target : NodeId) :
    Bool × World :=
  match w.attempts.get? a, w.nodes.get? source, w.nodes.get? target with
  | some s, some sourceNode, some targetNode =>
    match (w.record r).reservedPriority with
    | none => (false, w)
    | some priority =>
      if sourceNode.partition = targetNode.partition ∧ sourceNode.heldBy r ∧
          s.reservations.get? ⟨priority, source⟩ = some r then
        match targetNode.reserveVacant a priority r with
        | .error _ => (false, w)
        | .ok filled =>
          let w := (w.addNode filled).updateNode source (·.vacate r)
          let w := w.unindex a ⟨priority, source⟩
          let w := w.updateRecord r fun record =>
            record.reserve record.reservedResource target priority
          (true, w.index a ⟨priority, target⟩ r)
      else (false, w)
  | _, _, _ => (false, w)

def nodeToUnreserve (w : World) (s : Attempt) (priority : Priority) (need cluster : Resource) :
    Option (NodeId × RecordId) :=
  (s.reservationsAt priority).find? fun e =>
    s.calculator.atMost cluster need (w.record e.2).reservedResource

/-- Picks a reservation to give up, and credits its resource to the fallback headroom. -/
def findToUnreserve (w : World) (a : AttemptId) (priority : Priority) (need cluster : Resource) :
    Option RecordId × World :=
  match w.attempts.get? a with
  | none => (none, w)
  | some s =>
    match w.nodeToUnreserve s priority need cluster with
    | none => (none, w)
    | some (n, r) =>
      if w.nodes.contains n then
        (some r, w.updateAttempt a fun s =>
          { s with fallbackHeadroom := s.fallbackHeadroom + (w.record r).reservedResource })
      else (none, w)

end ClusterLedger.World
