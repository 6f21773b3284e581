import ClusterLedger.Proofs.Parts
import ClusterLedger.Proofs.Script
/- What bounds the headroom of an attempt: the limit of a queue, or a headroom that was set. Four calls
   write there, and simulations make none of these. -/
namespace ClusterLedger

/-- Whose the attempt is, on which queue it is, and what its headroom is read from. -/
structure Bounds where
  user : String
  queue : QueueName
  limit : Option QueueLimit
  fallback : Resource

def Attempt.bounds (s : Attempt) : Bounds := ⟨s.user, s.queue, s.queueLimit, s.fallbackHeadroom⟩

def Call.Plain : Call → Prop
  | .pick .. | .limitBy .. | .setHeadroom .. | .transfer .. => False
  | _ => True

instance : Attempt.OffBooks Attempt.bounds := ⟨fun _ _ _ _ _ _ _ _ _ => rfl⟩

namespace World

abbrev bounds? (w : World) : AttemptId → Option Bounds := w.part? Attempt.bounds

variable {w w' : World}

theorem bounds_kept (w : World) (a : AttemptId) {f : Attempt → Attempt}
    (kept : ∀ s, (f s).bounds = s.bounds) : (w.updateAttempt a f).bounds? = w.bounds? :=
  part_kept Attempt.bounds w a kept

@[simp] theorem bounds_renew (s : Attempt) (priority : Priority) (p : Partition) (x : RecordId) :
    (w.renew s priority p x).bounds? = w.bounds? := by
  rw [renew, bounds_kept _ _ (f := (·.countReReservation priority)) fun _ => rfl]
  simp [unaccount]

theorem bounds_reserve {x : AttemptId} {p : Priority} {n : NodeId} {existing : Option RecordId}
    {c : Container} {r : RecordId} (answer : w.reserve x p n existing c = .ok (r, w')) :
    w'.bounds? = w.bounds? := by
  obtain ⟨s, node, _, _, _, made | ⟨old, _, made⟩⟩ := reserve_made answer
  · obtain ⟨_, _, _, _, _, rfl⟩ := reserveFresh_made made
    simp [enlist]
  · obtain ⟨_, _, _, rfl⟩ := reserveAgain_made made
    simp

theorem bounds_perform {c : Call} (plain : c.Plain) : (w.perform c).bounds? = w.bounds? := by
  cases c with
  | allocate x locality n p c =>
    rcases allocate_cases (w := w) x locality n p c with refused | ⟨s, node, found, offered, may⟩
    · simp [perform, refused]
    · simp only [perform, allocate, found, offered, may, ↓reduceIte]
      generalize made : ({ Record.make c s.id s.user node.partition with
        requests := (s.demand.consume p (locality.places node.id node.rack)).1 } : Record).start = record
      have enrolled := bounds_kept (w.addRecord record).2 x (f := (·.enroll w.clock c.id
        ⟨w.records.size⟩ (s.demand.consume p (locality.places node.id node.rack)).2)) fun _ => rfl
      split
      · refine (bounds_kept _ x (f := fun s => { s with
          amAllocated := true, launch := s.launch.advance .assigned "" }) fun _ => rfl).trans ?_
        simp only [part_increase]
        exact enrolled
      · simp only [part_increase]
        exact enrolled
  | complete x id report ending partition =>
    simp only [perform, complete]
    split
    · rfl
    · split
      · rfl
      · rename_i s _ r _
        have dropped := fun undelivered : List RecordId => bounds_kept w x
          (f := fun s => { s.accrue w.clock with
            marks := (s.marks.unmark id).2, live := s.live.erase id, undelivered }) fun _ => rfl
        refine (bounds_kept _ x (f := fun s => { s with
          accrual := s.accrual.invalidate
          launch := if (w.record r).isMaster then s.launch.advance .completed "" else s.launch })
            fun _ => rfl).trans ?_
        split <;> simp [dropped]
  | relabel x id old new => exact part_relabel Attempt.bounds w x id old new
  | mark x id => exact part_mark Attempt.bounds w x id
  | reserve x p n existing c =>
    cases answer : w.reserve x p n existing c with
    | error e => rw [perform_refused answer]
    | ok result =>
      rw [perform_reserved answer]
      exact bounds_reserve answer
  | unreserve x p n =>
    rcases unreserve_cases (w := w) x p n with refused | ⟨s, r, found, reserved⟩
    · simp [perform, refused]
    · simp only [perform, unreserve, found, reserved, part_updateNode, part_retire]
      exact bounds_kept w x fun _ => rfl
  | move x r source target => exact part_moveReservation Attempt.bounds w x r source target
  | snapshot x cluster =>
    simp only [perform, snapshot]
    split
    · rfl
    · rename_i s found
      obtain ⟨_, same⟩ := acquire_follows (w := w) s.undelivered
      funext b
      simp only [part?, updateAttempt_attempts, same]
      split
      · rename_i here
        rw [here, found]
        rfl
      · rfl
  | report x partitionResource capacity =>
    exact part_report Attempt.bounds w x partitionResource capacity
  | stop x => exact bounds_kept w x fun _ => rfl
  | request x requests => exact bounds_kept w x fun _ => rfl
  | skipNode x text => exact bounds_kept w x fun _ => rfl
  | processNode x n =>
    simp only [perform]
    split
    · refine bounds_kept w x fun s => ?_
      unfold Attempt.processNode
      split <;> rfl
    · rfl
  | setPartition | claim | release | setClock => rfl
  | pick | limitBy | setHeadroom | transfer => exact plain.elim

theorem bounds_after {calls : List Call} (plain : ∀ c ∈ calls, c.Plain) :
    (w.after calls).bounds? = w.bounds? := by
  induction calls generalizing w with
  | nil => rfl
  | cons c calls ih =>
    obtain ⟨first, rest⟩ := List.forall_mem_cons.mp plain
    exact (ih rest).trans (bounds_perform first)

end World

namespace Simulation
variable (sim : Simulation)

theorem place_plain (a : AttemptId) (node : Node) (requests : List Request) (priority : Priority)
    (capability : Resource) : ∀ c ∈ sim.placeCalls a node requests priority capability, c.Plain := by
  unfold placeCalls
  dsimp only
  split <;> simp [Call.Plain]

theorem offerAt_plain (a : AttemptId) (n : NodeId) (partition : Partition) (priority : Priority) :
    ∀ c ∈ sim.offerAtCalls a n partition priority, c.Plain := by
  unfold offerAtCalls
  split
  · split
    · simp
    · split
      · simp
      · split
        · exact List.forall_mem_cons.mpr ⟨trivial, place_plain _ _ _ _ _ _⟩
        · unfold holdCalls
          split <;> simp [Call.Plain]
  · simp

theorem each_plain {α : Type} {f : Simulation → α → PassStats × Simulation}
    {calls : Simulation → α → List Call} (step : ∀ sim x, ∀ c ∈ calls sim x, c.Plain)
    (items : List α) : ∀ c ∈ callsEach f calls sim items, c.Plain := by
  induction items generalizing sim with
  | nil => simp [callsEach]
  | cons x items ih => exact List.forall_mem_append.mpr ⟨step sim x, ih _⟩

theorem offer_plain (n : NodeId) (a : AttemptId) : ∀ c ∈ offerCalls n sim a, c.Plain := by
  unfold offerCalls
  split
  · split
    · simp
    · exact List.forall_mem_cons.mpr
        ⟨trivial, each_plain _ (fun sim p => offerAt_plain sim a n _ p) _⟩
  · simp

theorem marks_plain (count : Nat) : ∀ c ∈ sim.markCalls count, c.Plain := by
  induction count generalizing sim with
  | zero => simp [markCalls]
  | succ count ih =>
    rw [markCalls]
    split
    · simp
    · refine List.forall_mem_append.mpr ⟨fun c member => ?_, ih _⟩
      obtain ⟨id, _, rfl⟩ := Option.map_eq_some_iff.mp (Option.mem_toList.mp member)
      trivial

theorem reclaimAll_plain (a : AttemptId) (ids : List ContainerId) :
    ∀ c ∈ sim.reclaimAllCalls a ids, c.Plain := by
  induction ids generalizing sim with
  | nil => simp [reclaimAllCalls]
  | cons id ids ih =>
    refine List.forall_mem_append.mpr ⟨?_, ih _⟩
    unfold reclaimCalls
    dsimp only
    split
    · simp
    · split <;> simp [Call.Plain]

theorem pull_plain (cluster : Resource) (order : List AttemptId) :
    ∀ c ∈ sim.pullCalls cluster order, c.Plain := by
  induction order generalizing sim with
  | nil => simp [pullCalls]
  | cons a rest ih =>
    exact List.forall_mem_cons.mpr
      ⟨trivial, List.forall_mem_append.mpr ⟨reclaimAll_plain _ a _, ih _⟩⟩

theorem script_plain (acts : List Act) : ∀ c ∈ sim.script acts, c.Plain := by
  induction acts generalizing sim with
  | nil => simp [script]
  | cons x acts ih =>
    refine List.forall_mem_append.mpr ⟨?_, ih _⟩
    cases x with
    | schedule worker round =>
      exact each_plain _ (fun sim _ => each_plain sim (fun sim a => offer_plain sim _ a) _) _
    | preempt => exact marks_plain sim _
    | beat => exact pull_plain sim _ _
    | stop | request | setClock => simp [calls, Call.Plain]

variable {sim}

theorem bounds_acts (tidy : sim.world.Tidy) (acts : List Act) :
    (acts.foldl act sim).world.bounds? = sim.world.bounds? := by
  rw [(plays_script tidy acts).world, World.bounds_after (sim.script_plain acts)]

end Simulation

namespace World
variable {w : World} {a : AttemptId} {s : Attempt}

theorem headroom_limited (sound : w.Sound) (found : w.attempts.get? a = some s) {l : QueueLimit}
    (limited : s.queueLimit = some l) (own : l.queue = s.queue) : ∃ queue,
      w.queues.get? s.queue = some queue ∧
        w.headroom s = l.limit - queue.usage.get .used l.partition := by
  obtain ⟨queue, there⟩ := Option.isSome_iff_exists.mp (sound.queued found)
  refine ⟨queue, there, ?_⟩
  simp only [headroom, limited, own, there]
  rfl

end World
end ClusterLedger
