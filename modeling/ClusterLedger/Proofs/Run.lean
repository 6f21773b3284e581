import ClusterLedger.World.Containers
import ClusterLedger.World.Reservations
import ClusterLedger.World.Heartbeat
import ClusterLedger.Proofs.Access
/- Runs: any calls, in any order, on a world whose attempts have done nothing yet.
   A run is sequential; what callers overlap in time is one of its orders. -/
namespace ClusterLedger

/-- One call on a world: an operation of an attempt, or something that befalls a node or the clock.
    Every argument is the caller's, handles of records included. -/
inductive Call
  | allocate (a : AttemptId) (locality : Locality) (n : NodeId) (priority : Priority)
      (container : Container)
  | complete (a : AttemptId) (id : ContainerId) (report : ExitReport) (ending : Ending)
      (partition : Partition)
  | relabel (a : AttemptId) (id : ContainerId) (old new : Partition)
  | mark (a : AttemptId) (id : ContainerId)
  | reserve (a : AttemptId) (priority : Priority) (n : NodeId) (existing : Option RecordId)
      (container : Container)
  | unreserve (a : AttemptId) (priority : Priority) (n : NodeId)
  | move (a : AttemptId) (r : RecordId) (source target : NodeId)
  | pick (a : AttemptId) (priority : Priority) (need cluster : Resource)
  | snapshot (a : AttemptId) (cluster : Resource)
  | report (a : AttemptId) (partitionResource : Resource) (capacity : Float)
  | transfer (a previous : AttemptId)
  | stop (a : AttemptId)
  | request (a : AttemptId) (requests : List Request)
  | limitBy (a : AttemptId) (limit : QueueLimit)
  | setHeadroom (a : AttemptId) (headroom : Resource)
  | skipNode (a : AttemptId) (note : String)
  | processNode (a : AttemptId) (n : NodeId)
  | setPartition (n : NodeId) (partition : Partition)
  | claim (n : NodeId) (r : Resource)
  | release (n : NodeId) (r : Resource)
  | setClock (now : Nat)

namespace World

def perform (w : World) : Call → World
  | .allocate a locality n priority container => (w.allocate a locality n priority container).2
  | .complete a id report ending partition => (w.complete a id report ending partition).2
  | .relabel a id old new => (w.relabel a id old new).2
  | .mark a id => (w.mark a id).2
  | .reserve a priority n existing container => (w.tryReserve a priority n existing container).2
  | .unreserve a priority n => (w.unreserve a priority n).2
  | .move a r source target => (w.moveReservation a r source target).2
  | .pick a priority need cluster => (w.findToUnreserve a priority need cluster).2
  | .snapshot a cluster => (w.snapshot a cluster).2
  | .report a partitionResource capacity => (w.report a partitionResource capacity).2
  | .transfer a previous => w.transfer a previous
  | .stop a => w.updateAttempt a fun s => { s with stopped := true }
  | .request a requests => w.updateAttempt a fun s => { s with demand := s.demand.update requests }
  | .limitBy a limit => w.updateAttempt a fun s => { s with queueLimit := some limit }
  | .setHeadroom a headroom => w.updateAttempt a fun s => { s with fallbackHeadroom := headroom }
  | .skipNode a note => w.updateAttempt a fun s => { s with launch := s.launch.skip note }
  | .processNode a n =>
    match w.nodes.get? n with
    | some node => w.updateAttempt a (·.processNode node)
    | none => w
  | .setPartition n partition => w.updateNode n fun node => { node with partition }
  | .claim n r => w.updateNode n fun node => (node.claim? r).getD node
  | .release n r => w.updateNode n (·.release r)
  | .setClock now => { w with clock := now }

def after (w : World) (calls : List Call) : World := calls.foldl perform w

@[simp] theorem after_nil (w : World) : w.after [] = w := rfl

@[simp] theorem after_cons (w : World) (c : Call) (calls : List Call) :
    w.after (c :: calls) = (w.perform c).after calls := rfl

def Along (allowed : World → Call → Prop) : World → List Call → Prop
  | _, [] => True
  | w, c :: calls => allowed w c ∧ Along allowed (w.perform c) calls

theorem Along.preserves {allowed : World → Call → Prop} (holds : World → Prop)
    (step : ∀ w c, holds w → allowed w c → holds (w.perform c)) {w : World} {calls : List Call}
    (start : holds w) (along : Along allowed w calls) : holds (w.after calls) := by
  induction calls generalizing w with
  | nil => exact start
  | cons c calls ih => exact ih (step w c start along.1) along.2

theorem Along.imp {allowed allowed' : World → Call → Prop}
    (weaker : ∀ w c, allowed w c → allowed' w c) {w : World} {calls : List Call}
    (along : Along allowed w calls) : Along allowed' w calls := by
  induction calls generalizing w with
  | nil => trivial
  | cons c calls ih => exact ⟨weaker w c along.1, ih along.2⟩

end World

/-- Nothing has happened to the attempt since it was made; it may have demand and headroom. -/
structure Attempt.Untouched (s : Attempt) : Prop where
  live : s.live = ∅
  undelivered : s.undelivered = []
  reservations : s.reservations = ∅
  reReservations : s.reReservations = ∅
  marks : s.marks = {}
  usage : s.usage = ({} : Usage).assign .amResource s.amPartition s.amResource
  launch : s.launch = {}
  amAllocated : s.amAllocated = false

theorem Attempt.make_untouched (id : AttemptId) (user : String) (queue : QueueName)
    (config : SchedulerConfig) (amRequest : Option Request) (now : Nat) :
    (Attempt.make id user queue config amRequest now).Untouched := by
  constructor <;> rfl

namespace World

/-- Where runs start: everything is filed under its own name, slots are vacant, queues are blank,
    attempts are untouched and have a queue. Records may be there already. -/
structure Opening (w : World) : Prop where
  nodes : ∀ {n node}, w.nodes.get? n = some node → node.id = n ∧ node.slot = none
  queues : ∀ {q queue}, w.queues.get? q = some queue → queue = { name := q }
  attempts : ∀ {a s}, w.attempts.get? a = some s →
    s.id = a ∧ s.Untouched ∧ (w.queues.get? s.queue).isSome

theorem opening_empty : ({} : World).Opening := by
  constructor <;> simp

theorem Opening.addNode {w : World} (opening : w.Opening) {node : Node}
    (vacant : node.slot = none) : (w.addNode node).Opening where
  nodes := by
    intro n other found
    rw [addNode_nodes] at found
    split at found
    · rename_i same
      obtain rfl := Option.some.inj found
      exact ⟨same.symm, vacant⟩
    · exact opening.nodes found
  queues := opening.queues
  attempts := opening.attempts

theorem Opening.addQueue {w : World} (opening : w.Opening) (q : QueueName) :
    (w.addQueue q).Opening where
  nodes := opening.nodes
  queues := by
    intro q' queue found
    simp only [World.addQueue, Table.lookup_insert] at found
    split at found
    · rename_i same
      exact same ▸ (Option.some.inj found).symm
    · exact opening.queues found
  attempts := by
    intro a s found
    obtain ⟨named, untouched, queue⟩ := opening.attempts found
    refine ⟨named, untouched, ?_⟩
    simp only [World.addQueue, Table.lookup_insert]
    split
    · rfl
    · exact queue

theorem Opening.addAttempt {w : World} (opening : w.Opening) {s : Attempt} (untouched : s.Untouched)
    (queue : (w.queues.get? s.queue).isSome) : (w.addAttempt s).Opening where
  nodes := opening.nodes
  queues := opening.queues
  attempts := by
    intro a other found
    simp only [World.addAttempt, Table.lookup_insert] at found
    split at found
    · rename_i same
      obtain rfl := Option.some.inj found
      exact ⟨same.symm, untouched, queue⟩
    · exact opening.attempts found

/-- Two nodes and two attempts that share a queue. -/
def sample : World :=
  ((((({} : World).addNode
    { id := ⟨"n1"⟩, rack := "r", partition := "", total := ⟨8192, 8⟩ }).addNode
    { id := ⟨"n2"⟩, rack := "r", partition := "", total := ⟨8192, 8⟩ }).addQueue ⟨"q"⟩).addAttempt
    (Attempt.make ⟨"a"⟩ "u" ⟨"q"⟩ {} none 0)).addAttempt (Attempt.make ⟨"b"⟩ "u" ⟨"q"⟩ {} none 0)

theorem sample_opening : sample.Opening := by
  refine Opening.addAttempt (Opening.addAttempt (Opening.addQueue (Opening.addNode (Opening.addNode
    opening_empty rfl) rfl) _) ?_ ?_) ?_ ?_
  · exact Attempt.make_untouched _ _ _ _ _ _
  · decide
  · exact Attempt.make_untouched _ _ _ _ _ _
  · decide

def slot? (w : World) (n : NodeId) : Option Slot := (w.nodes.get? n).bind (·.slot)

def reservation? (w : World) (a : AttemptId) (b : Berth) : Option RecordId :=
  (w.attempts.get? a).bind (·.reservations.get? b)

def running? (w : World) (a : AttemptId) (id : ContainerId) : Option RecordId :=
  (w.attempts.get? a).bind (·.live.get? id)

def waiting (w : World) (a : AttemptId) : List RecordId :=
  ((w.attempts.get? a).map (·.undelivered)).getD []

end World
end ClusterLedger
