import ClusterLedger.Usage
/- Queues: the figures of their attempts together, and counters of reservations and releases. -/
namespace ClusterLedger

structure QueueMetrics where
  reservedContainers : Nat := 0
  reserved : Resource := .zero
  releasedContainers : Nat := 0
  released : Resource := .zero
deriving DecidableEq, Repr, Inhabited

structure Queue where
  name : QueueName
  metrics : QueueMetrics := {}
  usage : Usage := {}
deriving DecidableEq, Repr

namespace Queue

def countReservation (q : Queue) (r : Resource) : Queue :=
  { q with metrics := { q.metrics with
      reservedContainers := q.metrics.reservedContainers + 1
      reserved := q.metrics.reserved + r } }

def uncountReservation (q : Queue) (r : Resource) : Queue :=
  { q with metrics := { q.metrics with
      reservedContainers := q.metrics.reservedContainers - 1
      reserved := q.metrics.reserved - r } }

def countRelease (q : Queue) (containers : Nat) (r : Resource) : Queue :=
  { q with metrics := { q.metrics with
      releasedContainers := q.metrics.releasedContainers + containers
      released := q.metrics.released + r } }

def increase (q : Queue) (figure : Figure) (p : Partition) (r : Resource) : Queue :=
  { q with usage := q.usage.increase figure p r }

def decrease (q : Queue) (figure : Figure) (p : Partition) (r : Resource) : Queue :=
  { q with usage := q.usage.decrease figure p r }

def headroom (q : Queue) (p : Partition) (limit : Resource) : Resource :=
  limit - q.usage.get .used p

end Queue
end ClusterLedger
