import ClusterLedger.Proofs.Balance
import ClusterLedger.Proofs.Numbering
import ClusterLedger.Proofs.Simulation
/- The calls that a simulation makes on its world, pass by pass. What callers are told, and which
   names were drawn, is read off these calls, so what holds of every run of calls holds of
   simulations. -/
namespace ClusterLedger

def Call.drawn? : Call → Option ContainerId
  | .allocate _ _ _ _ container | .reserve _ _ _ _ container => some container.id
  | _ => none

/-- Begins and ends nothing, hands nothing over, and no name is drawn for it. -/
def Call.Aside : Call → Prop
  | .allocate .. | .reserve .. | .complete .. | .snapshot .. => False
  | _ => True

structure Account where
  allocated : Nat := 0
  records : List HeartbeatRecord := []
  reclaimed : Nat := 0

instance : Add Account :=
  ⟨fun x y => ⟨x.allocated + y.allocated, x.records ++ y.records, x.reclaimed + y.reclaimed⟩⟩

namespace PassStats

theorem blank_add (stats : PassStats) : {} + stats = stats := by
  obtain ⟨allocated, reserved, unreserved⟩ := stats
  show PassStats.mk _ _ _ = _
  simp

theorem add_blank (stats : PassStats) : stats + {} = stats := rfl

theorem add_assoc (x y z : PassStats) : x + y + z = x + (y + z) := by
  show PassStats.mk _ _ _ = PassStats.mk _ _ _
  congr 1 <;> exact Nat.add_assoc _ _ _

end PassStats

@[simp] theorem Account.add_parts (allocated allocated' reclaimed reclaimed' : Nat)
    (records records' : List HeartbeatRecord) :
    Account.mk allocated records reclaimed + ⟨allocated', records', reclaimed'⟩ =
      ⟨allocated + allocated', records ++ records', reclaimed + reclaimed'⟩ := rfl

theorem World.perform_claim {w : World} {n : NodeId} {node claimed : Node} {r : Resource}
    (there : w.nodes.get? n = some node) (named : node.id = n)
    (granted : node.claim? r = some claimed) : w.perform (.claim n r) = w.addNode claimed := by
  have kept : claimed.id = n := by
    unfold Node.claim? at granted
    split at granted
    · rw [← Option.some.inj granted, named]
    · simp at granted
  simp [perform, updateNode, Table.modify, there, granted, addNode, kept]

namespace Simulation
variable (sim : Simulation)

def placeCalls (a : AttemptId) (node : Node) (requests : List Request) (priority : Priority)
    (capability : Resource) : List Call :=
  let container : Container :=
    { id := (sim.freshId a).1, node := node.id, resource := capability, priority
      token := some s!"nmtoken:{node.id}" }
  let unreserve := Call.unreserve a priority node.id
  let allocate := Call.allocate a (localityOn requests node) node.id priority container
  match (sim.world.perform unreserve).starts allocate with
  | [] => [unreserve, allocate, .release node.id capability]
  | _ :: _ => [unreserve, allocate]

def holdCalls (a : AttemptId) (node : Node) (existing : Option RecordId) (priority : Priority)
    (capability : Resource) : List Call :=
  if node.slot.any (·.attempt != a) then []
  else
    let container : Container :=
      { id := (sim.freshId a).1, node := node.id, resource := capability, priority }
    [.reserve a priority node.id existing container]

def offerAtCalls (a : AttemptId) (n : NodeId) (partition : Partition) (priority : Priority) :
    List Call :=
  match sim.world.attempts.get? a, sim.world.nodes.get? n with
  | some s, some node =>
    match s.demand.request? priority anyPlace with
    | none => []
    | some wanted =>
      if wanted.count = 0 ∨ wanted.label ≠ partition then []
      else
        match node.claim? wanted.capability with
        | some claimed =>
          .claim n wanted.capability :: { sim with world := sim.world.addNode claimed }.placeCalls a
            node (s.demand.atPriority priority) priority wanted.capability
        | none =>
          sim.holdCalls a node (s.reservations.get? ⟨priority, n⟩) priority wanted.capability
  | _, _ => []

def callsEach {α : Type} (f : Simulation → α → PassStats × Simulation)
    (calls : Simulation → α → List Call) (sim : Simulation) : List α → List Call
  | [] => []
  | x :: items => calls sim x ++ callsEach f calls (f sim x).2 items

def offerCalls (n : NodeId) (sim : Simulation) (a : AttemptId) : List Call :=
  match sim.world.attempts.get? a, sim.world.nodes.get? n with
  | some s, some node =>
    if s.stopped then []
    else
      let noted := { sim with world := sim.world.updateAttempt a (·.processNode node) }
      .processNode a n :: callsEach (fun sim p => sim.offerAt a n node.partition p)
        (fun sim p => sim.offerAtCalls a n node.partition p) noted s.demand.priorities
  | _, _ => []

def passCalls (worker round : Nat) : List Call :=
  callsEach (fun sim e => countEach (offer e.1) sim (sim.rotated (firstOffset round e.2)))
    (fun sim e => callsEach (offer e.1) (offerCalls e.1) sim
      (sim.rotated (firstOffset round e.2))) sim (sim.shareOf worker)

def markCalls (sim : Simulation) : Nat → List Call
  | 0 => []
  | count + 1 =>
    match sim.victim? with
    | none => []
    | some victim =>
      let mark := (victim.live.keys.reverse.find? (!victim.marks.has ·)).map (Call.mark victim.id ·)
      mark.toList ++ (sim.preemptOne victim).2.markCalls count

def reclaimCalls (a : AttemptId) (id : ContainerId) : List Call :=
  match (sim.world.attempts.get? a).bind (·.live.get? id) with
  | none => []
  | some r =>
    let record := sim.world.record r
    let complete := Call.complete a id preemptedReport .preempted record.partition
    match sim.world.finishes complete with
    | [] => [complete]
    | _ :: _ => [complete, .release record.node record.resource]

def reclaimAllCalls (sim : Simulation) (a : AttemptId) : List ContainerId → List Call
  | [] => []
  | id :: ids => sim.reclaimCalls a id ++ (sim.reclaim a id).2.reclaimAllCalls a ids

def pullCalls (sim : Simulation) (cluster : Resource) : List AttemptId → List Call
  | [] => []
  | a :: rest =>
    let (snapshot, world) := sim.world.snapshot a cluster
    let handed := { sim with world }
    .snapshot a cluster :: (handed.reclaimAllCalls a snapshot.preempted.ids ++
      (handed.reclaimAll a snapshot.preempted.ids).2.pullCalls cluster rest)

def calls : Act → List Call
  | .schedule worker round => sim.passCalls worker round
  | .preempt => sim.markCalls (sim.attempts.filter isStarving).length
  | .beat _ => sim.pullCalls sim.world.clusterResource sim.order
  | .stop a => [.stop a]
  | .request a requests => [.request a requests]
  | .setClock now => [.setClock now]

def script (sim : Simulation) : List Act → List Call
  | [] => []
  | x :: acts => sim.calls x ++ (sim.act x).script acts

def answer : Act → Account
  | .schedule worker round => { allocated := (sim.schedulingPass worker round).1.allocated }
  | .beat heartbeat =>
    { records := (sim.beat heartbeat).1, reclaimed := (sim.beat heartbeat).2.1 }
  | .preempt | .stop _ | .request .. | .setClock _ => {}

def account (sim : Simulation) : List Act → Account
  | [] => {}
  | x :: acts => sim.answer x + (sim.act x).account acts

/-- A part of a simulation makes these calls and tells what they come to. Each name that it draws is
    in one of the calls, in the order of the numbers. -/
structure Plays (calls : List Call) (told : Account) (sim' : Simulation) : Prop where
  world : sim'.world = sim.world.after calls
  order : sim'.order = sim.order
  drawn : ∃ names, calls.filterMap Call.drawn? = namesFrom sim.nextContainer names ∧
    sim'.nextContainer = sim.nextContainer + names.length
  begun : (sim.world.gather World.starts calls).length = told.allocated
  ended : (sim.world.gather World.finishes calls).length = told.reclaimed
  handed : sim.world.gather World.hands calls = told.records.flatMap (·.snapshot.containers)
  late : World.Along World.Late sim.world calls

variable {sim} {m sim' : Simulation} {calls more : List Call} {told rest : Account}

theorem plays_nothing : Plays sim [] {} sim := by
  refine ⟨rfl, rfl, ⟨[], rfl, rfl⟩, rfl, rfl, rfl, trivial⟩

theorem Plays.append (first : Plays sim calls told m) (second : Plays m more rest sim') :
    Plays sim (calls ++ more) (told + rest) sim' := by
  obtain ⟨names, drawn, next⟩ := first.drawn
  obtain ⟨names', drawn', next'⟩ := second.drawn
  have later := second.world
  have begun := second.begun
  have ended := second.ended
  have handed := second.handed
  have late := second.late
  rw [first.world] at later begun ended handed late
  refine ⟨?_, second.order.trans first.order, ⟨names ++ names', ?_, ?_⟩, ?_, ?_, ?_,
    first.late.append late⟩
  · rw [later, World.after_append]
  · rw [List.filterMap_append, drawn, drawn', namesFrom_append, next]
  · rw [next', next, List.length_append, Nat.add_assoc]
  · rw [World.gather_append, List.length_append, first.begun, begun]
    rfl
  · rw [World.gather_append, List.length_append, first.ended, ended]
    rfl
  · rw [World.gather_append, first.handed, handed]
    exact List.flatMap_append.symm

theorem Plays.tidy (plays : Plays sim calls told sim') (tidy : sim.world.Tidy) :
    sim'.world.Tidy :=
  plays.world ▸ tidy.after calls

theorem Plays.idle (plays : Plays sim calls told sim') (tidy : sim.world.Tidy)
    (none : told.allocated = 0) {a : AttemptId}
    (idle : (sim.world.roster a).undelivered = []) : (sim'.world.roster a).undelivered = [] := by
  have quiet := List.length_eq_zero_iff.mp (plays.begun.trans none)
  exact plays.world ▸ World.idle_after tidy quiet idle

theorem plays_aside (sim : Simulation) {c : Call} (aside : c.Aside) :
    Plays sim [c] {} { sim with world := sim.world.perform c } := by
  cases c with
  | allocate | reserve | complete | snapshot => exact aside.elim
  | _ => exact ⟨rfl, rfl, ⟨[], rfl, rfl⟩, rfl, rfl, rfl, trivial, trivial⟩

theorem plays_place (a : AttemptId) (node : Node) (requests : List Request) (priority : Priority)
    (capability : Resource) :
    Plays sim (sim.placeCalls a node requests priority capability)
      { allocated := (sim.place a node requests priority capability).1.allocated }
      (sim.place a node requests priority capability).2 := by
  simp only [place, placeCalls, freshId_name]
  generalize made : Container.mk _ _ _ _ _ _ = container
  have names : [container.id] = namesFrom sim.nextContainer [a] := made ▸ rfl
  cases placed : ((sim.world.unreserve a priority node.id).2.allocate a (localityOn requests node)
    node.id priority container).1 with
  | none =>
    simp only [World.starts, World.perform, placed, Option.isSome_none, Bool.false_eq_true,
      ↓reduceIte]
    refine ⟨rfl, rfl, ⟨[a], names, rfl⟩, ?_, rfl, rfl, trivial, trivial, trivial, trivial⟩
    simp [World.gather, World.starts, World.perform, placed]
  | some r =>
    simp only [World.starts, World.perform, placed, Option.isSome_some, ↓reduceIte]
    refine ⟨rfl, rfl, ⟨[a], names, rfl⟩, ?_, rfl, rfl, trivial, trivial, trivial⟩
    simp [World.gather, World.starts, World.perform, placed]

theorem plays_hold (a : AttemptId) (node : Node) (existing : Option RecordId) (priority : Priority)
    (capability : Resource) :
    Plays sim (sim.holdCalls a node existing priority capability)
      { allocated := (sim.hold a node existing priority capability).1.allocated }
      (sim.hold a node existing priority capability).2 := by
  unfold hold holdCalls
  split
  · exact plays_nothing
  · simp only [freshId_name]
    generalize made : Container.mk _ _ _ _ _ _ = container
    have names : [container.id] = namesFrom sim.nextContainer [a] := made ▸ rfl
    split <;> exact ⟨rfl, rfl, ⟨[a], names, rfl⟩, rfl, rfl, rfl, trivial, trivial⟩

theorem plays_offerAt (tidy : sim.world.Tidy) (a : AttemptId) (n : NodeId) (partition : Partition)
    (priority : Priority) :
    Plays sim (sim.offerAtCalls a n partition priority)
      { allocated := (sim.offerAt a n partition priority).1.allocated }
      (sim.offerAt a n partition priority).2 := by
  cases found : sim.world.attempts.get? a with
  | none => simpa only [offerAt, offerAtCalls, found] using plays_nothing
  | some s =>
    cases there : sim.world.nodes.get? n with
    | none => simpa only [offerAt, offerAtCalls, found, there] using plays_nothing
    | some node =>
      cases asked : s.demand.request? priority anyPlace with
      | none => simpa only [offerAt, offerAtCalls, found, there, asked] using plays_nothing
      | some wanted =>
        simp only [offerAt, offerAtCalls, found, there, asked]
        by_cases idle : wanted.count = 0 ∨ wanted.label ≠ partition
        · simp only [if_pos idle]
          exact plays_nothing
        · simp only [if_neg idle]
          cases answer : node.claim? wanted.capability with
          | none => exact plays_hold a node _ priority wanted.capability
          | some claimed =>
            have claims := plays_aside sim (c := .claim n wanted.capability) trivial
            rw [World.perform_claim there (tidy.nodes n node there) answer] at claims
            simpa using claims.append (plays_place a node (s.demand.atPriority priority) priority
              wanted.capability)

theorem countEach_cons {α : Type} (f : Simulation → α → PassStats × Simulation) (sim : Simulation)
    (x : α) (items : List α) : countEach f sim (x :: items) =
      ((f sim x).1 + (countEach f (f sim x).2 items).1, (countEach f (f sim x).2 items).2) := by
  have along : ∀ (items : List α) (stats : PassStats) (sim : Simulation),
      items.foldl (fun (e : PassStats × Simulation) x => (e.1 + (f e.2 x).1, (f e.2 x).2))
          (stats, sim) =
        (stats + (countEach f sim items).1, (countEach f sim items).2) := by
    intro items
    induction items with
    | nil =>
      intro stats sim
      exact Prod.ext (PassStats.add_blank stats).symm rfl
    | cons y items ih =>
      intro stats sim
      have first : countEach f sim (y :: items) = ({} + (f sim y).1 +
          (countEach f (f sim y).2 items).1, (countEach f (f sim y).2 items).2) := ih _ _
      rw [first, List.foldl_cons, ih, PassStats.blank_add, PassStats.add_assoc]
  exact (along items _ _).trans (by rw [PassStats.blank_add])

theorem plays_each {α : Type} {f : Simulation → α → PassStats × Simulation}
    {calls : Simulation → α → List Call}
    (step : ∀ sim x, sim.world.Tidy →
      Plays sim (calls sim x) { allocated := (f sim x).1.allocated } (f sim x).2)
    (tidy : sim.world.Tidy) (items : List α) :
    Plays sim (callsEach f calls sim items) { allocated := (countEach f sim items).1.allocated }
      (countEach f sim items).2 := by
  induction items generalizing sim with
  | nil => exact plays_nothing
  | cons x items ih =>
    have first := step sim x tidy
    rw [countEach_cons]
    exact first.append (ih (first.tidy tidy))

theorem plays_offer (tidy : sim.world.Tidy) (n : NodeId) (a : AttemptId) :
    Plays sim (offerCalls n sim a) { allocated := (offer n sim a).1.allocated }
      (offer n sim a).2 := by
  cases found : sim.world.attempts.get? a with
  | none => simpa only [offer, offerCalls, found] using plays_nothing
  | some s =>
    cases there : sim.world.nodes.get? n with
    | none => simpa only [offer, offerCalls, found, there] using plays_nothing
    | some node =>
      simp only [offer, offerCalls, found, there]
      split
      · exact plays_nothing
      · have notes := plays_aside sim (c := .processNode a n) trivial
        simp only [World.perform, there] at notes
        have offers := plays_each (fun sim p tidy => plays_offerAt tidy a n node.partition p)
          (notes.tidy tidy) s.demand.priorities
        simpa using notes.append offers

theorem plays_pass (tidy : sim.world.Tidy) (worker round : Nat) :
    Plays sim (sim.passCalls worker round)
      { allocated := (sim.schedulingPass worker round).1.allocated }
      (sim.schedulingPass worker round).2 :=
  plays_each (fun _ e tidy => plays_each (fun _ a tidy => plays_offer tidy e.1 a) tidy _) tidy _

theorem plays_marks (sim : Simulation) (count : Nat) :
    Plays sim (sim.markCalls count) {} (sim.preemptTimes count).2 := by
  induction count generalizing sim with
  | zero => exact plays_nothing
  | succ count ih =>
    cases chosen : sim.victim? with
    | none => simpa only [preemptTimes, markCalls, chosen] using plays_nothing
    | some victim =>
      simp only [preemptTimes, markCalls, chosen]
      have marks : Plays sim ((victim.live.keys.reverse.find? (!victim.marks.has ·)).map
          (Call.mark victim.id ·)).toList {} (sim.preemptOne victim).2 := by
        unfold preemptOne
        split
        · rename_i none
          rw [none]
          exact plays_nothing
        · rename_i id newest
          rw [newest]
          exact plays_aside sim (c := .mark victim.id id) trivial
      simpa using marks.append (ih (sim.preemptOne victim).2)

theorem plays_reclaim {a : AttemptId} (idle : (sim.world.roster a).undelivered = [])
    (id : ContainerId) : Plays sim (sim.reclaimCalls a id) { reclaimed := (sim.reclaim a id).1 }
      (sim.reclaim a id).2 := by
  cases found : (sim.world.attempts.get? a).bind (·.live.get? id) with
  | none => simpa only [reclaim, reclaimCalls, found] using plays_nothing
  | some r =>
    simp only [reclaim, reclaimCalls, found]
    generalize (sim.world.record r).partition = partition
    cases done : (sim.world.complete a id preemptedReport .preempted partition).1 with
    | false =>
      simp only [World.finishes, done, Bool.false_eq_true, ↓reduceIte]
      refine ⟨rfl, rfl, ⟨[], rfl, rfl⟩, rfl, ?_, rfl, idle, trivial⟩
      simp [World.gather, World.finishes, done]
    | true =>
      simp only [World.finishes, done, ↓reduceIte]
      refine ⟨rfl, rfl, ⟨[], rfl, rfl⟩, rfl, ?_, rfl, idle, trivial, trivial⟩
      simp [World.gather, World.finishes, done]

theorem plays_reclaimAll {a : AttemptId} (tidy : sim.world.Tidy)
    (idle : (sim.world.roster a).undelivered = []) (ids : List ContainerId) :
    Plays sim (sim.reclaimAllCalls a ids) { reclaimed := (sim.reclaimAll a ids).1 }
      (sim.reclaimAll a ids).2 := by
  induction ids generalizing sim with
  | nil => exact plays_nothing
  | cons id ids ih =>
    have first := plays_reclaim idle id
    exact first.append (ih (first.tidy tidy) (first.idle tidy rfl idle))

/-- A snapshot leaves nothing in line, so what is ended next does not wait. Of a snapshot that is
    empty no record is made, and it hands nothing over. -/
theorem plays_visit (tidy : sim.world.Tidy) (heartbeat : Nat) (cluster : Resource) (a : AttemptId) :
    let snapshot := (sim.world.snapshot a cluster).1
    let handed := { sim with world := (sim.world.snapshot a cluster).2 }
    let visited := (handed.reclaimAll a snapshot.preempted.ids).2
    Plays sim (.snapshot a cluster :: handed.reclaimAllCalls a snapshot.preempted.ids)
        { records := if snapshot.isEmpty then [] else [⟨heartbeat, a, snapshot⟩]
          reclaimed := (handed.reclaimAll a snapshot.preempted.ids).1 } visited ∧
      (visited.world.roster a).undelivered = [] := by
  generalize taken : sim.world.snapshot a cluster = answer
  obtain ⟨snapshot, world⟩ := answer
  have given : sim.world.hands (.snapshot a cluster) = snapshot.containers := by
    simp [World.hands, taken]
  have handed : Plays sim [.snapshot a cluster]
      { records := if snapshot.isEmpty then [] else [⟨heartbeat, a, snapshot⟩] }
      { sim with world } := by
    refine ⟨?_, rfl, ⟨[], rfl, rfl⟩, rfl, rfl, ?_, trivial, trivial⟩
    · simp [World.perform, taken]
    · rw [World.gather, World.gather, given, List.append_nil]
      split
      · rename_i blank
        simp only [Snapshot.isEmpty, Bool.and_eq_true, List.isEmpty_iff] at blank
        exact blank.1
      · simp
  have idle := World.snapshot_idle tidy a cluster
  rw [taken] at idle
  have ended := plays_reclaimAll (handed.tidy tidy) idle snapshot.preempted.ids
  constructor
  · simpa using handed.append ended
  · exact ended.idle (handed.tidy tidy) rfl idle

theorem plays_pull (tidy : sim.world.Tidy) (heartbeat : Nat) (cluster : Resource)
    (order : List AttemptId) :
    Plays sim (sim.pullCalls cluster order)
      { records := (sim.pull heartbeat cluster order).1
        reclaimed := (sim.pull heartbeat cluster order).2.1 }
      (sim.pull heartbeat cluster order).2.2 := by
  induction order generalizing sim with
  | nil => exact plays_nothing
  | cons a rest ih =>
    have visit := (plays_visit tidy heartbeat cluster a).1
    simpa [pull, pullCalls] using visit.append (ih (visit.tidy tidy))

theorem pull_idle (tidy : sim.world.Tidy) (heartbeat : Nat) (cluster : Resource)
    {order : List AttemptId} {a : AttemptId}
    (asked : a ∈ order ∨ (sim.world.roster a).undelivered = []) :
    ((sim.pull heartbeat cluster order).2.2.world.roster a).undelivered = [] := by
  induction order generalizing sim with
  | nil => simpa [pull] using asked
  | cons b rest ih =>
    obtain ⟨visit, idle⟩ := plays_visit tidy heartbeat cluster b
    refine ih (visit.tidy tidy) ?_
    rcases asked with member | nothing
    · rcases List.mem_cons.mp member with rfl | later
      · exact .inr idle
      · exact .inl later
    · exact .inr (visit.idle tidy rfl nothing)

theorem plays_act (tidy : sim.world.Tidy) (x : Act) :
    Plays sim (sim.calls x) (sim.answer x) (sim.act x) := by
  cases x with
  | schedule worker round => exact plays_pass tidy worker round
  | preempt => exact plays_marks sim _
  | beat heartbeat => exact plays_pull tidy heartbeat _ _
  | stop a => exact plays_aside sim (c := .stop a) trivial
  | request a requests => exact plays_aside sim (c := .request a requests) trivial
  | setClock now => exact plays_aside sim (c := .setClock now) trivial

theorem plays_script (tidy : sim.world.Tidy) (acts : List Act) :
    Plays sim (sim.script acts) (sim.account acts) (acts.foldl act sim) := by
  induction acts generalizing sim with
  | nil => exact plays_nothing
  | cons x acts ih =>
    have first := plays_act tidy x
    exact first.append (ih (first.tidy tidy))

end Simulation
end ClusterLedger
