import ClusterLedger.Config.Cluster
import ClusterLedger.World.Containers
import ClusterLedger.World.Reservations
import ClusterLedger.World.Heartbeat
/- Scheduling passes, preemption and heartbeats over a described cluster. -/
namespace ClusterLedger

structure PassStats where
  allocated : Nat := 0
  reserved : Nat := 0
  unreserved : Nat := 0
deriving DecidableEq, Repr, Inhabited

instance : Add PassStats :=
  ⟨fun a b => ⟨a.allocated + b.allocated, a.reserved + b.reserved, a.unreserved + b.unreserved⟩⟩

structure HeartbeatRecord where
  heartbeat : Nat
  attempt : AttemptId
  snapshot : Snapshot
deriving DecidableEq, Repr

structure AttemptSummary where
  attempt : AttemptId
  queue : QueueName
  liveContainers : Nat
  reservedContainers : Nat
  pending : Resource
  usage : UsageReport
deriving DecidableEq, Repr

structure SimulationReport where
  cluster : Resource
  passes : PassStats
  preempted : Nat
  heartbeats : List HeartbeatRecord
  attempts : List AttemptSummary
deriving DecidableEq, Repr

/-- `order` lists the attempts as described; `nextContainer` numbers the next container. -/
structure Simulation where
  settings : SimulationSettings
  world : World
  order : List AttemptId
  nextContainer : Nat := 1
deriving DecidableEq, Repr

namespace Simulation

def nodeOf (n : NodeSpec) : Node :=
  { id := n.id, rack := n.rack, partition := n.partition, total := n.total }

def attemptOf (c : Cluster) (cluster : Resource) (spec : AttemptSpec) : Attempt :=
  let fresh := Attempt.make spec.id spec.user spec.queue c.scheduler spec.amRequest 0
  let asked := { fresh with demand := fresh.demand.update spec.requests }
  let bound := (c.queues.find? (·.name == spec.queue)).bind fun q =>
    q.limit.map fun limit => ⟨q.name, q.partition, limit⟩
  match bound with
  | some limit => { asked with queueLimit := some limit }
  | none => { asked with fallbackHeadroom := cluster }

def attemptOn (c : Cluster) (w : World) (spec : AttemptSpec) : Except ClusterError Attempt :=
  if w.queues.contains spec.queue then .ok (attemptOf c w.clusterResource spec)
  else .error (.unknownQueue spec.id spec.queue)

def build (c : Cluster) : Except ClusterError Simulation := do
  c.validate
  let world := (c.nodes.map nodeOf).foldl World.addNode {}
  let world := (c.queues.map (·.name)).foldl World.addQueue world
  let attempts ← c.attempts.mapM (attemptOn c world)
  return {
    settings := c.simulation
    world := attempts.foldl World.addAttempt world
    order := c.attempts.map (·.id) }

def sixDigits (n : Nat) : String :=
  let digits := toString n
  "".pushn '0' (6 - digits.length) ++ digits

def freshId (sim : Simulation) (a : AttemptId) : ContainerId × Simulation :=
  (⟨s!"container_{a}_{sixDigits sim.nextContainer}"⟩,
   { sim with nextContainer := sim.nextContainer + 1 })

def localityOn (requests : List Request) (node : Node) : Locality :=
  let wanted (place : String) := requests.any fun r => r.place == place && r.count != 0
  if wanted node.id.text then .nodeLocal
  else if wanted node.rack then .rackLocal
  else .offSwitch

/-- The node has room: a reservation there has served its purpose, and the container goes live. -/
def place (sim : Simulation) (a : AttemptId) (node : Node) (requests : List Request)
    (priority : Priority) (capability : Resource) : PassStats × Simulation :=
  let (freed, world) := sim.world.unreserve a priority node.id
  let (id, sim) := { sim with world }.freshId a
  let container : Container :=
    { id, node := node.id, resource := capability, priority, token := some s!"nmtoken:{node.id}" }
  let (placed, world) := sim.world.allocate a (localityOn requests node) node.id priority container
  let unreserved := if freed then 1 else 0
  match placed with
  | some _ => ({ allocated := 1, unreserved }, { sim with world })
  | none =>
    ({ unreserved }, { sim with world := world.updateNode node.id (·.release capability) })

/-- The node is full: it is held for the request unless another attempt holds it. -/
def hold (sim : Simulation) (a : AttemptId) (node : Node) (existing : Option RecordId)
    (priority : Priority) (capability : Resource) : PassStats × Simulation :=
  if node.slot.any (·.attempt != a) then ({}, sim)
  else
    let (id, sim) := sim.freshId a
    let container : Container := { id, node := node.id, resource := capability, priority }
    let (outcome, world) := sim.world.tryReserve a priority node.id existing container
    match outcome with
    | .ok _ => ({ reserved := 1 }, { sim with world })
    | .error _ => ({}, { sim with world })

def offerAt (sim : Simulation) (a : AttemptId) (n : NodeId) (partition : Partition)
    (priority : Priority) : PassStats × Simulation :=
  match sim.world.attempts.get? a, sim.world.nodes.get? n with
  | some s, some node =>
    match s.demand.request? priority anyPlace with
    | none => ({}, sim)
    | some wanted =>
      if wanted.count = 0 ∨ wanted.label ≠ partition then ({}, sim)
      else
        match node.claim? wanted.capability with
        | some claimed =>
          { sim with world := sim.world.addNode claimed }.place a node (s.demand.atPriority priority)
            priority wanted.capability
        | none =>
          sim.hold a node (s.reservations.get? ⟨priority, n⟩) priority wanted.capability
  | _, _ => ({}, sim)

def countEach (f : Simulation → α → PassStats × Simulation) (sim : Simulation) (items : List α) :
    PassStats × Simulation :=
  items.foldl (fun (stats, sim) x => let (more, sim) := f sim x; (stats + more, sim)) ({}, sim)

def offer (n : NodeId) (sim : Simulation) (a : AttemptId) : PassStats × Simulation :=
  match sim.world.attempts.get? a, sim.world.nodes.get? n with
  | some s, some node =>
    if s.stopped then ({}, sim)
    else
      let sim := { sim with world := sim.world.updateAttempt a (·.processNode node) }
      countEach (fun sim p => sim.offerAt a n node.partition p) sim s.demand.priorities
  | _, _ => ({}, sim)

def rotated (sim : Simulation) (offset : Nat) : List AttemptId :=
  sim.order.rotateLeft offset

def shareOf (sim : Simulation) (worker : Nat) : List (NodeId × Nat) :=
  sim.world.nodes.keys.zipIdx.filter fun (_, i) => i % max sim.settings.workers.toNat 1 == worker

/-- Which attempt goes first on the node at position `i`: it changes with the round, and rounds are
    counted in 64 bits. -/
def firstOffset (round i : Nat) : Nat := (round + i) % UInt64.size

def schedulingPass (sim : Simulation) (worker round : Nat) : PassStats × Simulation :=
  countEach (fun sim (n, i) => countEach (offer n) sim (sim.rotated (firstOffset round i))) sim
    (sim.shareOf worker)

def attempts (sim : Simulation) : List Attempt := sim.order.filterMap sim.world.attempts.get?

def isStarving (s : Attempt) : Bool := s.live.isEmpty && !s.demand.pending.isZero

/-- Does `a` use more memory than `b`? Of two equal ones the later name counts as more. -/
def usesMore (a b : Attempt) : Bool :=
  let memory (s : Attempt) := (s.usage.total .used).memoryMb
  match compare (memory a) (memory b) with
  | .gt => true
  | .eq => (compare a.id b.id).isGE
  | .lt => false

/-- The largest consumer among the attempts with more than one live container. -/
def victim? (sim : Simulation) : Option Attempt :=
  (sim.attempts.filter (1 < ·.live.size)).foldl
    (fun best s => some (match best with | none => s | some b => if usesMore s b then s else b)) none

def preemptOne (sim : Simulation) (victim : Attempt) : Nat × Simulation :=
  match victim.live.keys.reverse.find? (!victim.marks.has ·) with
  | none => (0, sim)
  | some id =>
    let (marked, world) := sim.world.mark victim.id id
    (if marked then 1 else 0, { sim with world })

def preemptTimes (sim : Simulation) : Nat → Nat × Simulation
  | 0 => (0, sim)
  | count + 1 =>
    match sim.victim? with
    | none => (0, sim)
    | some victim =>
      let (marked, sim) := sim.preemptOne victim
      let (more, sim) := sim.preemptTimes count
      (marked + more, sim)

def preemptionPass (sim : Simulation) : Nat × Simulation :=
  sim.preemptTimes (sim.attempts.filter isStarving).length

def preemptedReport : ExitReport := ⟨-102, "Container preempted by scheduler"⟩

def reclaim (sim : Simulation) (a : AttemptId) (id : ContainerId) : Nat × Simulation :=
  match (sim.world.attempts.get? a).bind (·.live.get? id) with
  | none => (0, sim)
  | some r =>
    let record := sim.world.record r
    let (done, world) := sim.world.complete a id preemptedReport .preempted record.partition
    if done then
      (1, { sim with world := world.updateNode record.node (·.release record.resource) })
    else (0, { sim with world })

def reclaimAll (sim : Simulation) (a : AttemptId) : List ContainerId → Nat × Simulation
  | [] => (0, sim)
  | id :: ids =>
    let (one, sim) := sim.reclaim a id
    let (more, sim) := sim.reclaimAll a ids
    (one + more, sim)

/-- Pulls the snapshot of each attempt and ends what it gives back. Empty snapshots leave no record. -/
def pull (sim : Simulation) (heartbeat : Nat) (cluster : Resource) :
    List AttemptId → List HeartbeatRecord × Nat × Simulation
  | [] => ([], 0, sim)
  | a :: rest =>
    let (snapshot, world) := sim.world.snapshot a cluster
    let (reclaimed, sim) := { sim with world }.reclaimAll a snapshot.preempted.ids
    let (records, more, sim) := sim.pull heartbeat cluster rest
    let own := if snapshot.isEmpty then [] else [⟨heartbeat, a, snapshot⟩]
    (own ++ records, reclaimed + more, sim)

def beat (sim : Simulation) (heartbeat : Nat) : List HeartbeatRecord × Nat × Simulation :=
  sim.pull heartbeat sim.world.clusterResource sim.order

def partitionResource (sim : Simulation) (partition : Partition) : Resource :=
  .sum ((sim.world.nodes.values.filter (·.partition == partition)).map (·.total))

def summarize (sim : Simulation) : List AttemptId → List AttemptSummary × Simulation
  | [] => ([], sim)
  | a :: rest =>
    match sim.world.attempts.get? a with
    | none => sim.summarize rest
    | some s =>
      let (usage, world) := sim.world.report a (sim.partitionResource s.amPartition) 1.0
      let own := usage.map fun usage =>
        { attempt := s.id, queue := s.queue, usage
          liveContainers := s.live.size
          reservedContainers := s.reservations.size
          pending := s.demand.pending : AttemptSummary }
      let (summaries, sim) := { sim with world }.summarize rest
      (own.toList ++ summaries, sim)

def summary (sim : Simulation) : List AttemptSummary × Simulation := sim.summarize sim.order

def clockAt (settings : SimulationSettings) (n : Nat) : Nat :=
  (n - 1) * max settings.heartbeatMillis.toNat 1 * 1000000

def preemptsAt (settings : SimulationSettings) (n : Nat) : Bool :=
  0 < settings.preemptEvery && n % settings.preemptEvery.toNat == 0

/-- The passes of all workers, preemption if it is due, and the snapshots of one heartbeat. -/
def round (sim : Simulation) (n : Nat) : PassStats × List HeartbeatRecord × Nat × Simulation :=
  let sim := { sim with world := { sim.world with clock := clockAt sim.settings n } }
  let (passes, sim) := countEach (fun sim worker => sim.schedulingPass worker n) sim
    (List.range sim.settings.workers.toNat)
  let sim := if preemptsAt sim.settings n then sim.preemptionPass.2 else sim
  let (records, reclaimed, sim) := sim.beat n
  (passes, records, reclaimed, sim)

def rounds (sim : Simulation) (n : Nat) : Nat → PassStats × List HeartbeatRecord × Nat × Simulation
  | 0 => ({}, [], 0, sim)
  | left + 1 =>
    let (passes, records, reclaimed, sim) := sim.round n
    let (morePasses, moreRecords, moreReclaimed, sim) := sim.rounds (n + 1) left
    (passes + morePasses, records ++ moreRecords, reclaimed + moreReclaimed, sim)

def run (c : Cluster) : Except ClusterError SimulationReport := do
  let sim ← build c
  let (passes, heartbeats, preempted, final) := sim.rounds 1 sim.settings.heartbeats.toNat
  return {
    cluster := sim.world.clusterResource
    passes, preempted, heartbeats
    attempts := final.summary.1 }

end Simulation
end ClusterLedger
