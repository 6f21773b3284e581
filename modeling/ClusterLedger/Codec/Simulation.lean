import ClusterLedger.Codec.Exchange
import ClusterLedger.Simulation
/- Documents of what a simulation answers. -/
namespace ClusterLedger

instance : Encodable PassStats where
  encode s := .object [
    ("allocated", encode s.allocated), ("reserved", encode s.reserved),
    ("unreserved", encode s.unreserved)]

instance : Encodable HeartbeatRecord where
  encode r := .object [
    ("heartbeat", encode r.heartbeat), ("attempt", encode r.attempt),
    ("allocation", encode r.snapshot)]

instance : Encodable AttemptSummary where
  encode s := .object [
    ("attempt", encode s.attempt), ("queue", encode s.queue),
    ("live_containers", encode s.liveContainers),
    ("reserved_containers", encode s.reservedContainers), ("pending", encode s.pending),
    ("usage", encode s.usage)]

instance : Encodable SimulationReport where
  encode r := .object [
    ("cluster", encode r.cluster), ("passes", encode r.passes), ("preempted", encode r.preempted),
    ("heartbeats", encode r.heartbeats), ("attempts", encode r.attempts)]

end ClusterLedger
