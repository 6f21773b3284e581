import ClusterLedger.Codec.Basic
import ClusterLedger.Launch
import ClusterLedger.Queue
import ClusterLedger.Snapshot
/- Documents of what the scheduler, its applications and its operators exchange. -/
namespace ClusterLedger

instance : Encodable Resource where
  encode r := .object [("memory_mb", encode r.memoryMb), ("vcores", encode r.vcores)]

instance : Decodable Resource where
  decode dialect d := do
    match ← d.fields? dialect ["memory_mb", "vcores"] with
    | [memoryMb, vcores] =>
      return { memoryMb := ← required dialect memoryMb, vcores := ← required dialect vcores }
    | _ => none

def Locality.name : Locality → String
  | nodeLocal => "node_local"
  | rackLocal => "rack_local"
  | offSwitch => "off_switch"

instance : Encodable Locality := ⟨fun l => .text l.name⟩

def chooseFrom (all : List α) (name : α → String) (dialect : Dialect) (d : Document) : Option α := do
  let chosen ← d.choice? dialect
  all.find? (name · == chosen)

instance : Decodable Locality := ⟨chooseFrom [.nodeLocal, .rackLocal, .offSwitch] Locality.name⟩

instance : Encodable Request where
  encode r := .object [
    ("priority", encode r.priority), ("resource_name", encode r.place),
    ("capability", encode r.capability), ("num_containers", encode r.count),
    ("relax_locality", encode r.relaxLocality), ("node_label_expression", encode r.label)]

instance : Decodable Request where
  decode dialect d := do
    match ← d.fields? dialect ["priority", "resource_name", "capability", "num_containers",
        "relax_locality", "node_label_expression"] with
    | [priority, place, capability, count, relaxLocality, label] =>
      return {
        priority := ← required dialect priority
        place := ← required dialect place
        capability := ← required dialect capability
        count := ← required dialect count
        relaxLocality := ← optional dialect true relaxLocality
        label := ← optional dialect Partition.default label }
    | _ => none

instance : Encodable Container where
  encode c := .object [
    ("id", encode c.id), ("node_id", encode c.node), ("resource", encode c.resource),
    ("priority", encode c.priority), ("is_am_container", encode c.isMaster),
    ("node_token", encode c.token)]

instance : Decodable Container where
  decode dialect d := do
    match ← d.fields? dialect ["id", "node_id", "resource", "priority", "is_am_container",
        "node_token"] with
    | [id, node, resource, priority, isMaster, token] =>
      return {
        id := ← required dialect id
        node := ← required dialect node
        resource := ← required dialect resource
        priority := ← required dialect priority
        isMaster := ← optional dialect false isMaster
        token := ← optional dialect none token }
    | _ => none

def ContainerState.name : ContainerState → String
  | fresh => "new"
  | reserved => "reserved"
  | allocated => "allocated"
  | acquired => "acquired"
  | completed => "completed"

instance : Encodable ContainerState := ⟨fun s => .text s.name⟩

instance : Decodable ContainerState :=
  ⟨chooseFrom [.fresh, .reserved, .allocated, .acquired, .completed] ContainerState.name⟩

def Ending.name : Ending → String
  | finished => "finished"
  | released => "released"
  | killed => "killed"
  | expired => "expired"
  | preempted => "preempted"

instance : Encodable Ending := ⟨fun e => .text e.name⟩

instance : Decodable Ending :=
  ⟨chooseFrom [.finished, .released, .killed, .expired, .preempted] Ending.name⟩

instance : Encodable ExitReport where
  encode r := .object [("exit_status", encode r.exitStatus), ("diagnostics", encode r.diagnostics)]

instance : Decodable ExitReport where
  decode dialect d := do
    match ← d.fields? dialect ["exit_status", "diagnostics"] with
    | [exitStatus, diagnostics] =>
      return {
        exitStatus := ← required dialect exitStatus
        diagnostics := ← required dialect diagnostics }
    | _ => none

def LaunchState.name : LaunchState → String
  | inactivated => "inactivated"
  | activated => "activated"
  | assigned => "assigned"
  | launched => "launched"
  | completed => "completed"

instance : Encodable LaunchState := ⟨fun s => .text s.name⟩

instance : Decodable LaunchState :=
  ⟨chooseFrom [.inactivated, .activated, .assigned, .launched, .completed] LaunchState.name⟩

instance : Encodable MasterLimits where
  encode m := .object [
    ("am_resource_limit", encode m.limit), ("user_am_resource_limit", encode m.userLimit),
    ("am_used", encode m.used)]

instance : Decodable MasterLimits where
  decode dialect d := do
    match ← d.fields? dialect ["am_resource_limit", "user_am_resource_limit", "am_used"] with
    | [limit, userLimit, used] =>
      return {
        limit := ← required dialect limit
        userLimit := ← required dialect userLimit
        used := ← required dialect used }
    | _ => none

instance : Encodable Capacities where
  encode c := .object [
    ("partition_resource", encode c.partitionResource), ("absolute_capacity", encode c.capacity),
    ("absolute_used_capacity", encode c.usedCapacity),
    ("absolute_max_capacity", encode c.maxCapacity)]

instance : Decodable Capacities where
  decode dialect d := do
    match ← d.fields? dialect ["partition_resource", "absolute_capacity", "absolute_used_capacity",
        "absolute_max_capacity"] with
    | [partitionResource, capacity, usedCapacity, maxCapacity] =>
      return {
        partitionResource := ← required dialect partitionResource
        capacity := ← required dialect capacity
        usedCapacity := ← required dialect usedCapacity
        maxCapacity := ← required dialect maxCapacity }
    | _ => none

instance : Encodable QueueMetrics where
  encode m := .object [
    ("reserved_containers", encode m.reservedContainers), ("reserved", encode m.reserved),
    ("released_containers", encode m.releasedContainers), ("released", encode m.released)]

instance : Decodable QueueMetrics where
  decode dialect d := do
    match ← d.fields? dialect ["reserved_containers", "reserved", "released_containers",
        "released"] with
    | [reservedContainers, reserved, releasedContainers, released] =>
      return {
        reservedContainers := ← required dialect reservedContainers
        reserved := ← required dialect reserved
        releasedContainers := ← required dialect releasedContainers
        released := ← required dialect released }
    | _ => none

instance : Encodable Figures where
  encode f := .object [
    ("used", encode f.used), ("reserved", encode f.reserved), ("am_used", encode f.amUsed),
    ("am_resource", encode f.amResource)]

instance : Decodable Figures where
  decode dialect d := do
    match ← d.fields? dialect ["used", "reserved", "am_used", "am_resource"] with
    | [used, reserved, amUsed, amResource] =>
      return {
        used := ← required dialect used
        reserved := ← required dialect reserved
        amUsed := ← required dialect amUsed
        amResource := ← required dialect amResource }
    | _ => none

instance : Encodable Usage where
  encode u := .object [("partitions", encode u.partitions)]

instance : Decodable Usage where
  decode dialect d := do
    match ← d.fields? dialect ["partitions"] with
    | [partitions] => return { partitions := ← required dialect partitions }
    | _ => none

instance : Encodable UsageReport where
  encode r := .object [
    ("num_used_containers", encode r.usedContainers),
    ("num_reserved_containers", encode r.reservedContainers), ("used", encode r.used),
    ("reserved", encode r.reserved), ("needed", encode r.needed),
    ("memory_mb_seconds", encode r.memorySeconds), ("vcore_seconds", encode r.vcoreSeconds),
    ("queue_usage_percentage", encode r.queueUsagePercentage)]

instance : Decodable UsageReport where
  decode dialect d := do
    match ← d.fields? dialect ["num_used_containers", "num_reserved_containers", "used", "reserved",
        "needed", "memory_mb_seconds", "vcore_seconds", "queue_usage_percentage"] with
    | [usedContainers, reservedContainers, used, reserved, needed, memorySeconds, vcoreSeconds,
        queueUsagePercentage] =>
      return {
        usedContainers := ← required dialect usedContainers
        reservedContainers := ← required dialect reservedContainers
        used := ← required dialect used
        reserved := ← required dialect reserved
        needed := ← required dialect needed
        memorySeconds := ← required dialect memorySeconds
        vcoreSeconds := ← required dialect vcoreSeconds
        queueUsagePercentage := ← required dialect queueUsagePercentage }
    | _ => none

instance : Encodable Marks := ⟨fun m => encode m.ids⟩

instance : Decodable Marks where
  decode dialect d := (decode dialect d).map Marks.ofIds

instance : Encodable Snapshot where
  encode s := .object [
    ("containers", encode s.containers), ("headroom", encode s.headroom),
    ("preempted", encode s.preempted), ("release_requests", encode s.releaseRequests),
    ("node_tokens", encode s.nodeTokens)]

instance : Decodable Snapshot where
  decode dialect d := do
    match ← d.fields? dialect ["containers", "headroom", "preempted", "release_requests",
        "node_tokens"] with
    | [containers, headroom, preempted, releaseRequests, nodeTokens] =>
      return {
        containers := ← required dialect containers
        headroom := ← required dialect headroom
        preempted := ← required dialect preempted
        releaseRequests := ← required dialect releaseRequests
        nodeTokens := ← required dialect nodeTokens }
    | _ => none

end ClusterLedger
