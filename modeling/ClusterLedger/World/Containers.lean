import ClusterLedger.World
/- Allocation, completion, relabelling and preemption marks of containers. -/
namespace ClusterLedger.World

def mayAllocate (w : World) (s : Attempt) (priority : Priority) (id : ContainerId) : Bool :=
  !s.stopped && s.demand.outstanding priority != 0 && !s.isLive id && !w.isReserved s id

def allocate (w : World) (a : AttemptId) (locality : Locality) (n : NodeId) (priority : Priority)
    (container : Container) : Option RecordId × World :=
  match w.attempts.get? a, w.nodes.get? n with
  | some s, some node =>
    if w.mayAllocate s priority container.id then
      let (requests, demand) := s.demand.consume priority (locality.places node.id node.rack)
      let fresh := Record.make container s.id s.user node.partition
      let (r, w) := w.addRecord { fresh with requests }.start
      let w := w.updateAttempt a fun s =>
        { s.accrue w.clock with
          live := s.live.insert container.id r, undelivered := s.undelivered ++ [r], demand }
      let w := w.increase s .used node.partition container.resource
      if container.isMaster then
        let w := w.increase s .amUsed node.partition container.resource
        (some r, w.updateAttempt a fun s =>
          { s with amAllocated := true, launch := s.launch.advance .assigned "" })
      else (some r, w)
    else (none, w)
  | _, _ => (none, w)

def complete (w : World) (a : AttemptId) (id : ContainerId) (report : ExitReport) (ending : Ending)
    (partition : Partition) : Bool × World :=
  match w.attempts.get? a with
  | none => (false, w)
  | some s =>
    match s.live.get? id with
    | none => (false, w)
    | some r =>
      let resource := (w.record r).resource
      let isMaster := (w.record r).isMaster
      let undelivered := s.undelivered.filter fun u => (w.record u).id != id
      let w := w.updateAttempt a fun s =>
        { s.accrue w.clock with marks := (s.marks.unmark id).2, live := s.live.erase id, undelivered }
      let w := w.updateRecord r (·.finish report ending)
      let w := w.updateQueue s.queue (·.countRelease 1 resource)
      let w := w.decrease s .used partition resource
      let w := if isMaster then w.decrease s .amUsed partition resource else w
      (true, w.updateAttempt a fun s =>
        { s with
          accrual := s.accrual.invalidate
          launch := if isMaster then s.launch.advance .completed "" else s.launch })

/-- Moves a live container's figures after its node went from one partition to another.
    Nothing happens unless `old` is the partition on the container's record. -/
def relabel (w : World) (a : AttemptId) (id : ContainerId) (old new : Partition) : Bool × World :=
  match w.attempts.get? a with
  | none => (false, w)
  | some s =>
    match s.live.get? id with
    | none => (false, w)
    | some r =>
      let resource := (w.record r).resource
      if old = new ∨ (w.record r).partition ≠ old then (false, w)
      else
        let isMaster := (w.record r).isMaster
        let w := (w.decrease s .used old resource).increase s .used new resource
        let w :=
          if isMaster then
            ((w.decrease s .amUsed old resource).increase s .amUsed new resource).updateAttempt a
              fun s => { s with amPartition := new }
          else w
        (true, w.updateRecord r fun record => { record with partition := new })

def mark (w : World) (a : AttemptId) (id : ContainerId) : Bool × World :=
  match w.attempts.get? a with
  | none => (false, w)
  | some s =>
    if s.isLive id then
      let (new, marks) := s.marks.mark id
      (new, w.updateAttempt a fun s => { s with marks })
    else (false, w)

end ClusterLedger.World
