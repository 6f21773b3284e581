import ClusterLedger.Codec.Exchange
import ClusterLedger.Config.Cluster
/- Documents of settings and cluster descriptions. -/
namespace ClusterLedger

def Calculator.name : Calculator → String
  | memoryOnly => "default"
  | dominant => "dominant"

instance : Encodable Calculator := ⟨fun c => .text c.name⟩

instance : Decodable Calculator := ⟨chooseFrom [.memoryOnly, .dominant] Calculator.name⟩

instance : Encodable SchedulerConfig where
  encode c := .object [
    ("resource_calculator", encode c.calculator),
    ("aggregate_usage_refresh_secs", encode c.refreshSeconds),
    ("minimum_allocation", encode c.minimumAllocation)]

instance : Decodable SchedulerConfig where
  decode dialect d := do
    let absent : SchedulerConfig := {}
    match ← d.fields? dialect ["resource_calculator", "aggregate_usage_refresh_secs",
        "minimum_allocation"] with
    | [calculator, refreshSeconds, minimumAllocation] =>
      return {
        calculator := ← optional dialect absent.calculator calculator
        refreshSeconds := ← optional dialect absent.refreshSeconds refreshSeconds
        minimumAllocation := ← optional dialect absent.minimumAllocation minimumAllocation }
    | _ => none

instance : Encodable SimulationSettings where
  encode s := .object [
    ("workers", encode s.workers), ("heartbeats", encode s.heartbeats),
    ("heartbeat_interval_ms", encode s.heartbeatMillis), ("preempt_every", encode s.preemptEvery)]

instance : Decodable SimulationSettings where
  decode dialect d := do
    let absent : SimulationSettings := {}
    match ← d.fields? dialect ["workers", "heartbeats", "heartbeat_interval_ms",
        "preempt_every"] with
    | [workers, heartbeats, heartbeatMillis, preemptEvery] =>
      return {
        workers := ← optional dialect absent.workers workers
        heartbeats := ← optional dialect absent.heartbeats heartbeats
        heartbeatMillis := ← optional dialect absent.heartbeatMillis heartbeatMillis
        preemptEvery := ← optional dialect absent.preemptEvery preemptEvery }
    | _ => none

instance : Encodable NodeSpec where
  encode n := .object [
    ("id", encode n.id), ("rack", encode n.rack), ("partition", encode n.partition),
    ("memory_mb", encode n.memoryMb), ("vcores", encode n.vcores)]

instance : Decodable NodeSpec where
  decode dialect d := do
    match ← d.fields? dialect ["id", "rack", "partition", "memory_mb", "vcores"] with
    | [id, rack, partition, memoryMb, vcores] =>
      return {
        id := ← required dialect id
        rack := ← optional dialect "/default-rack" rack
        partition := ← optional dialect Partition.default partition
        memoryMb := ← required dialect memoryMb
        vcores := ← required dialect vcores }
    | _ => none

instance : Encodable QueueSpec where
  encode q := .object [
    ("name", encode q.name), ("limit", encode q.limit), ("partition", encode q.partition)]

instance : Decodable QueueSpec where
  decode dialect d := do
    match ← d.fields? dialect ["name", "limit", "partition"] with
    | [name, limit, partition] =>
      return {
        name := ← required dialect name
        limit := ← optional dialect none limit
        partition := ← optional dialect Partition.default partition }
    | _ => none

instance : Encodable AttemptSpec where
  encode s := .object [
    ("id", encode s.id), ("user", encode s.user), ("queue", encode s.queue),
    ("am_request", encode s.amRequest), ("requests", encode s.requests)]

instance : Decodable AttemptSpec where
  decode dialect d := do
    match ← d.fields? dialect ["id", "user", "queue", "am_request", "requests"] with
    | [id, user, queue, amRequest, requests] =>
      return {
        id := ← required dialect id
        user := ← required dialect user
        queue := ← required dialect queue
        amRequest := ← optional dialect none amRequest
        requests := ← optional dialect [] requests }
    | _ => none

instance : Encodable Cluster where
  encode c := .object [
    ("scheduler", encode c.scheduler), ("simulation", encode c.simulation),
    ("nodes", encode c.nodes), ("queues", encode c.queues), ("attempts", encode c.attempts)]

instance : Decodable Cluster where
  decode dialect d := do
    match ← d.fields? dialect ["scheduler", "simulation", "nodes", "queues", "attempts"] with
    | [scheduler, simulation, nodes, queues, attempts] =>
      return {
        scheduler := ← optional dialect {} scheduler
        simulation := ← optional dialect {} simulation
        nodes := ← optional dialect [] nodes
        queues := ← optional dialect [] queues
        attempts := ← optional dialect [] attempts }
    | _ => none

end ClusterLedger
