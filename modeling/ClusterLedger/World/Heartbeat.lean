import ClusterLedger.World
/- Heartbeats of attempts: snapshots and reports. -/
namespace ClusterLedger.World

/-- Demand that replaces `total`, in units of the attempt's minimum allocation. -/
def replacement (s : Attempt) (cluster total : Resource) : Request :=
  { priority := .undefined
    place := anyPlace
    capability := s.minimumAllocation
    count := wholeCount (s.calculator.divide cluster total s.minimumAllocation) }

def liveTotal (w : World) (s : Attempt) (ids : List ContainerId) : Resource :=
  .sum ((ids.filterMap s.live.get?).map fun r => (w.record r).resource)

/-- Tokens of the nodes that `containers` are on; of one node the last token counts. -/
def tokensOf (containers : List Container) : Table NodeId String :=
  .ofList (containers.filterMap fun c => c.token.map (c.node, ·))

def snapshot (w : World) (a : AttemptId) (cluster : Resource) : Snapshot × World :=
  match w.attempts.get? a with
  | none => ({}, w)
  | some s =>
    let (wanted, marks) := s.marks.drain
    let containers := s.undelivered.map fun r => (w.record r).container
    let headroom := w.headroom s
    let taken := s.undelivered.foldl (fun w r => w.updateRecord r (·.acquire)) w
    let launch :=
      if containers.any (·.isMaster) then s.launch.advance .launched "" else s.launch
    ({ containers, headroom
       preempted := wanted
       releaseRequests := [replacement s cluster (w.liveTotal s wanted.ids)]
       nodeTokens := tokensOf containers },
     taken.updateAttempt a fun s =>
       { s with marks, undelivered := [], launch, lastHeadroom := headroom })

def queueUsage (s : Attempt) (partitionResource : Resource) (capacity : Float) : Float :=
  if s.calculator.isInvalidDivisor partitionResource then 0.0
  else
    s.calculator.divide partitionResource (s.usage.total .used) (partitionResource.scale capacity)
      * 100.0

def report (w : World) (a : AttemptId) (partitionResource : Resource) (capacity : Float) :
    Option UsageReport × World :=
  match w.attempts.get? a with
  | none => (none, w)
  | some s =>
    let used := s.usage.total .used
    let reserved := s.usage.total .reserved
    let accrual := s.accrual.refreshed w.clock s.refreshNanos used
    (some {
      usedContainers := s.live.size
      reservedContainers := s.reservations.size
      used, reserved
      needed := used + reserved
      memorySeconds := accrual.report.1
      vcoreSeconds := accrual.report.2
      queueUsagePercentage := queueUsage s partitionResource capacity },
     w.updateAttempt a fun s => { s with accrual })

def transfer (w : World) (a previous : AttemptId) : World :=
  match w.attempts.get? previous with
  | none => w
  | some p => w.updateAttempt a fun s =>
    { s with queueLimit := p.queueLimit, fallbackHeadroom := p.fallbackHeadroom }

end ClusterLedger.World
