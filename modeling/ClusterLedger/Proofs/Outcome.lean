import ClusterLedger.Proofs.Containers
import ClusterLedger.Proofs.Reservations
/- What each call comes to: one change of the books, two when a reservation displaces another, or
   none. -/
namespace ClusterLedger

/-- Whose operation a call is. What befalls nodes and the clock is nobody's. -/
def Call.actor : Call → Option AttemptId
  | .allocate a .. | .complete a .. | .relabel a .. | .mark a .. | .reserve a .. | .unreserve a ..
  | .move a .. | .pick a .. | .snapshot a .. | .report a .. | .transfer a .. | .stop a
  | .request a .. | .limitBy a .. | .setHeadroom a .. | .skipNode a .. | .processNode a .. => some a
  | .setPartition .. | .claim .. | .release .. | .setClock .. => none

namespace World

/-- What a call gives back, and to which queue: the resource of the container that it ends. -/
def givesBack (w : World) : Call → Option (QueueName × Resource)
  | .complete a c report ending partition =>
    if (w.complete a c report ending partition).1 then do
      let s ← w.attempts.get? a
      let r ← s.live.get? c
      return (s.queue, (w.record r).resource)
    else none
  | _ => none

inductive Outcome (w : World) : Call → World → Prop
  | begins {a locality n priority container w' s s' r record} :
    Begins w w' a s s' r record → Outcome w (.allocate a locality n priority container) w'
  | ends {a c report ending partition w' s s' r} :
    Ends w w' a s s' c r partition report ending →
      Outcome w (.complete a c report ending partition) w'
  | relabels {a c old new w' s s' r} :
    Relabels w w' a s s' c r new → Outcome w (.relabel a c old new) w'
  | reserves {a b existing container w' s s' node r record} :
    Reserves w w' a s s' b node r record →
      Outcome w (.reserve a b.priority b.node existing container) w'
  | displaces {a b b' existing container m w' s s' s'' node r r' record} :
    b'.node = b.node → Lapses w m a s s' b' r' → Reserves m w' a s' s'' b node r record →
      Outcome w (.reserve a b.priority b.node existing container) w'
  | resizes {a b container w' s s' r partition} :
    s.live.get? container.id = none → Resizes w w' a s s' b r partition container.resource →
      Outcome w (.reserve a b.priority b.node (some r) container) w'
  | lapses {a b w' s s' r} : Lapses w w' a s s' b r → Outcome w (.unreserve a b.priority b.node) w'
  | moves {a b target w' s s' r} :
    Moves w w' a s s' b target r → Outcome w (.move a r b.node target) w'
  | delivers {a cluster w' s s'} : Delivers w w' a s s' → Outcome w (.snapshot a cluster) w'
  | notes {c w' a s s'} : c.actor = some a → w.givesBack c = none → Notes w w' a s s' →
    Outcome w c w'
  | tends {c w'} : w.givesBack c = none → Tends w w' → Outcome w c w'

theorem notes_updateAttempt {w : World} {a : AttemptId} {s : Attempt} {f : Attempt → Attempt}
    (before : w.attempts.get? a = some s) (kept : (f s).KeepsBooks s) :
    Notes w (w.updateAttempt a f) a s (f s) where
  toKeepsBooks := kept
  before := before
  attempts := by
    intro b
    rw [updateAttempt_attempts, before]
    rfl
  queues := by
    intro q
    split
    · rename_i same
      rw [updateAttempt_queues, same]
      cases w.queues.get? s.queue <;> rfl
    · rfl
  nodes := rfl
  knows _ := .rfl
  records _ := rfl

theorem tends_refl (w : World) : Tends w w where
  attempts := rfl
  queues := rfl
  filed named := named
  slots _ := rfl
  knows _ := .rfl
  records _ := rfl

theorem tends_updateNode (w : World) (n : NodeId) {f : Node → Node} (named : ∀ x, (f x).id = x.id)
    (slot : ∀ x, (f x).slot = x.slot) : Tends w (w.updateNode n f) where
  attempts := rfl
  queues := rfl
  filed := by
    intro filed m node found
    rw [updateNode_nodes] at found
    split at found
    · rename_i same
      obtain ⟨old, at_, rfl⟩ := Option.map_eq_some_iff.mp found
      rw [named, same]
      exact filed n old at_
    · exact filed m node found
  slots := by
    intro m
    simp only [slot?, updateNode_nodes]
    split
    · rename_i same
      rw [same]
      cases w.nodes.get? n <;> simp [slot]
    · rfl
  knows _ := .rfl
  records _ := rfl

theorem outcome_updateAttempt {w : World} {c : Call} {a : AttemptId} {f : Attempt → Attempt}
    (own : c.actor = some a) (back : w.givesBack c = none) (kept : ∀ s, (f s).KeepsBooks s) :
    Outcome w c (w.updateAttempt a f) := by
  cases before : w.attempts.get? a with
  | none =>
    have same : w.updateAttempt a f = w := by
      simp [updateAttempt, Table.modify, before]
    rw [same]
    exact .tends back (tends_refl w)
  | some s => exact .notes own back (notes_updateAttempt before (kept s))

variable {w : World}

theorem outcome_mark (a : AttemptId) (id : ContainerId) :
    Outcome w (.mark a id) (w.mark a id).2 := by
  simp only [mark]
  split
  · exact .tends rfl (tends_refl w)
  · split
    · exact outcome_updateAttempt rfl rfl fun _ => ⟨rfl, rfl, rfl, rfl, rfl, rfl⟩
    · exact .tends rfl (tends_refl w)

theorem outcome_allocate (coherent : w.Coherent) (a : AttemptId) (locality : Locality) (n : NodeId)
    (priority : Priority) (container : Container) :
    Outcome w (.allocate a locality n priority container)
      (w.allocate a locality n priority container).2 := by
  have quiet : Outcome w (.allocate a locality n priority container) w := .tends rfl (tends_refl w)
  cases before : w.attempts.get? a with
  | none => simpa [allocate, before] using quiet
  | some s =>
    cases offered : w.nodes.get? n with
    | none => simpa [allocate, before, offered] using quiet
    | some node =>
      by_cases may : w.mayAllocate s priority container.id
      · obtain ⟨s', r, record, begins⟩ :=
          allocate_begins coherent locality before offered may
        exact .begins begins
      · simpa [allocate, before, offered, may] using quiet

theorem outcome_complete (coherent : w.Coherent) (a : AttemptId) (c : ContainerId) (report : ExitReport)
    (ending : Ending) (partition : Partition) :
    Outcome w (.complete a c report ending partition)
      (w.complete a c report ending partition).2 := by
  cases before : w.attempts.get? a with
  | none =>
    have back : w.givesBack (.complete a c report ending partition) = none := by
      simp [givesBack, complete, before]
    simpa [complete, before] using .tends back (tends_refl w)
  | some s =>
    cases found : s.live.get? c with
    | none =>
      have back : w.givesBack (.complete a c report ending partition) = none := by
        simp [givesBack, complete, before, found]
      simpa [complete, before, found] using .tends back (tends_refl w)
    | some r =>
      obtain ⟨s', ends⟩ := complete_ends coherent report ending partition before found
      exact .ends ends

theorem outcome_relabel (coherent : w.Coherent) (a : AttemptId) (c : ContainerId) (old new : Partition) :
    Outcome w (.relabel a c old new) (w.relabel a c old new).2 := by
  have quiet : Outcome w (.relabel a c old new) w := .tends rfl (tends_refl w)
  cases before : w.attempts.get? a with
  | none => simpa [relabel, before] using quiet
  | some s =>
    cases found : s.live.get? c with
    | none => simpa [relabel, before, found] using quiet
    | some r =>
      by_cases idle : old = new ∨ (w.record r).partition ≠ old
      · simp only [relabel, before, found, if_pos idle]
        exact quiet
      · obtain ⟨s', relabels⟩ := relabel_relabels coherent before found idle
        exact .relabels relabels

theorem outcome_reserve (sound : w.Sound) (a : AttemptId) (priority : Priority) (n : NodeId)
    (existing : Option RecordId) (container : Container) :
    Outcome w (.reserve a priority n existing container)
      (w.tryReserve a priority n existing container).2 := by
  have refused : ∀ e, w.tryReserve a priority n existing container = (.error e, w) →
      Outcome w (.reserve a priority n existing container)
        (w.tryReserve a priority n existing container).2 := by
    intro e answer
    rw [answer]
    exact .tends rfl (tends_refl w)
  have made : ∀ r w', w.tryReserve a priority n existing container = (.ok r, w') →
      Outcome w (.reserve a priority n existing container) w' →
      Outcome w (.reserve a priority n existing container)
        (w.tryReserve a priority n existing container).2 := by
    intro r w' answer outcome
    rw [answer]
    exact outcome
  cases before : w.attempts.get? a with
  | none => exact refused (.nodeNotFound n) (by simp [tryReserve, before])
  | some s =>
    cases offered : w.nodes.get? n with
    | none => exact refused (.nodeNotFound n) (by simp [tryReserve, before, offered])
    | some node =>
      by_cases running : s.isLive container.id
      · exact refused (.containerLive container.id) (by simp [tryReserve, before, offered, running])
      · have idFree : s.live.get? container.id = none := by
          simpa [Attempt.isLive, Table.contains] using running
        have freshly : w.tryReserve a priority n existing container =
              ((w.reserveFresh s priority node container).1.mapError .node,
                (w.reserveFresh s priority node container).2) →
            Outcome w (.reserve a priority n existing container)
              (w.tryReserve a priority n existing container).2 := by
          intro answer
          cases slot : node.slot with
          | none =>
            obtain ⟨r, w', s', record, given, reserves⟩ :=
              reserveFresh_vacant (b := ⟨priority, n⟩) sound before offered idFree slot
            rw [given] at answer
            exact made r w' answer (.reserves (b := ⟨priority, n⟩) reserves)
          | some held =>
            obtain ⟨owner, held, old⟩ := held
            by_cases own : owner = a
            · subst own
              obtain ⟨r, m, w', s', s'', b', record, given, same, lapses, reserves⟩ :=
                reserveFresh_displaced (b := ⟨priority, n⟩) sound before offered idFree slot
              rw [given] at answer
              exact made r w' answer (.displaces (b := ⟨priority, n⟩) same lapses reserves)
            · refine refused (.node ⟨node.id, owner⟩) (answer.trans ?_)
              simp [reserveFresh, Node.reserve, slot, sound.attemptNamed before, own,
                Except.mapError]
        cases found : s.reservations.get? ⟨priority, n⟩ with
        | none => exact freshly (by simp [tryReserve, reserveOver, before, offered, running, found])
        | some r =>
          by_cases again : existing = some r
          · obtain ⟨w', s', given, resizes⟩ := reserveAgain_resizes (b := ⟨priority, n⟩) sound
              before offered found container.resource
            subst again
            have answer : w.tryReserve a priority n (some r) container = (.ok r, w') := by
              simp [tryReserve, reserveOver, before, offered, running, found, given, Except.mapError]
            exact made r w' answer (.resizes (b := ⟨priority, n⟩) idFree resizes)
          · exact freshly (by
              simp [tryReserve, reserveOver, before, offered, running, found, again])

theorem outcome_unreserve (coherent : w.Coherent) (a : AttemptId) (priority : Priority) (n : NodeId) :
    Outcome w (.unreserve a priority n) (w.unreserve a priority n).2 := by
  have quiet : Outcome w (.unreserve a priority n) w := .tends rfl (tends_refl w)
  cases before : w.attempts.get? a with
  | none => simpa [unreserve, before] using quiet
  | some s =>
    cases found : s.reservations.get? ⟨priority, n⟩ with
    | none => simpa [unreserve, before, found] using quiet
    | some r =>
      obtain ⟨s', lapses⟩ := unreserve_lapses coherent before found
      exact .lapses (b := ⟨priority, n⟩) lapses

theorem outcome_move (sound : w.Sound) (a : AttemptId) (r : RecordId) (source target : NodeId) :
    Outcome w (.move a r source target) (w.moveReservation a r source target).2 := by
  have quiet : Outcome w (.move a r source target) w := .tends rfl (tends_refl w)
  simp only [moveReservation]
  split
  · rename_i s sourceNode targetNode before offered wanted
    split
    · exact quiet
    · rename_i priority placed
      split
      · rename_i may
        split
        · exact quiet
        · rename_i filled vacant
          obtain ⟨s', moves⟩ := move_moves (b := ⟨priority, source⟩) sound before may.2.2 offered
            wanted vacant
          exact .moves (b := ⟨priority, source⟩) moves
      · exact quiet
  · exact quiet

theorem outcome_snapshot (coherent : w.Coherent) (a : AttemptId) (cluster : Resource) :
    Outcome w (.snapshot a cluster) (w.snapshot a cluster).2 := by
  cases before : w.attempts.get? a with
  | none => simpa [snapshot, before] using .tends rfl (tends_refl w)
  | some s =>
    obtain ⟨s', delivers⟩ := snapshot_delivers coherent before cluster
    exact .delivers delivers

theorem outcome_processNode (a : AttemptId) (n : NodeId) :
    Outcome w (.processNode a n) (w.perform (.processNode a n)) := by
  simp only [perform]
  split
  · refine outcome_updateAttempt rfl rfl fun s => ?_
    unfold Attempt.processNode
    split <;> exact ⟨rfl, rfl, rfl, rfl, rfl, rfl⟩
  · exact .tends rfl (tends_refl w)

theorem outcome_pick (a : AttemptId) (priority : Priority) (need cluster : Resource) :
    Outcome w (.pick a priority need cluster) (w.findToUnreserve a priority need cluster).2 := by
  simp only [findToUnreserve]
  split
  · exact .tends rfl (tends_refl w)
  · split
    · exact .tends rfl (tends_refl w)
    · split
      · exact outcome_updateAttempt rfl rfl fun _ => ⟨rfl, rfl, rfl, rfl, rfl, rfl⟩
      · exact .tends rfl (tends_refl w)

theorem outcome_report (a : AttemptId) (partitionResource : Resource) (capacity : Float) :
    Outcome w (.report a partitionResource capacity) (w.report a partitionResource capacity).2 := by
  simp only [report]
  split
  · exact .tends rfl (tends_refl w)
  · exact outcome_updateAttempt rfl rfl fun _ => ⟨rfl, rfl, rfl, rfl, rfl, rfl⟩

theorem outcome_transfer (a previous : AttemptId) :
    Outcome w (.transfer a previous) (w.transfer a previous) := by
  simp only [transfer]
  split
  · exact .tends rfl (tends_refl w)
  · exact outcome_updateAttempt rfl rfl fun _ => ⟨rfl, rfl, rfl, rfl, rfl, rfl⟩

theorem outcome_claim (n : NodeId) (r : Resource) :
    Outcome w (.claim n r) (w.updateNode n fun node => (node.claim? r).getD node) := by
  refine .tends rfl (tends_updateNode w n ?_ ?_) <;>
    · intro x
      unfold Node.claim?
      split <;> rfl

/-- What a call comes to that neither reserves a node nor moves a reservation. Slots need not agree
    with indices for it. -/
theorem outcome_elsewhere (coherent : w.Coherent) {c : Call}
    (reserves : ∀ a priority n existing container, c ≠ .reserve a priority n existing container)
    (moves : ∀ a r source target, c ≠ .move a r source target) : Outcome w c (w.perform c) := by
  cases c with
  | allocate a locality n priority container =>
    exact outcome_allocate coherent a locality n priority container
  | complete a c report ending partition =>
    exact outcome_complete coherent a c report ending partition
  | relabel a c old new => exact outcome_relabel coherent a c old new
  | mark a c => exact outcome_mark a c
  | reserve a priority n existing container => exact absurd rfl (reserves _ _ _ _ _)
  | unreserve a priority n => exact outcome_unreserve coherent a priority n
  | move a r source target => exact absurd rfl (moves _ _ _ _)
  | pick a priority need cluster => exact outcome_pick a priority need cluster
  | snapshot a cluster => exact outcome_snapshot coherent a cluster
  | report a partitionResource capacity => exact outcome_report a partitionResource capacity
  | transfer a previous => exact outcome_transfer a previous
  | stop a => exact outcome_updateAttempt rfl rfl fun _ => ⟨rfl, rfl, rfl, rfl, rfl, rfl⟩
  | request a requests => exact outcome_updateAttempt rfl rfl fun _ => ⟨rfl, rfl, rfl, rfl, rfl, rfl⟩
  | limitBy a limit => exact outcome_updateAttempt rfl rfl fun _ => ⟨rfl, rfl, rfl, rfl, rfl, rfl⟩
  | setHeadroom a r => exact outcome_updateAttempt rfl rfl fun _ => ⟨rfl, rfl, rfl, rfl, rfl, rfl⟩
  | skipNode a note => exact outcome_updateAttempt rfl rfl fun _ => ⟨rfl, rfl, rfl, rfl, rfl, rfl⟩
  | processNode a n => exact outcome_processNode a n
  | setPartition n p => exact .tends rfl (tends_updateNode w n (fun _ => rfl) fun _ => rfl)
  | claim n r => exact outcome_claim n r
  | release n r => exact .tends rfl (tends_updateNode w n (fun _ => rfl) fun _ => rfl)
  | setClock now =>
    exact .tends rfl ⟨rfl, rfl, fun filed => filed, fun _ => rfl, fun _ => .rfl, fun _ => rfl⟩

theorem outcome (sound : w.Sound) (c : Call) : Outcome w c (w.perform c) := by
  cases c with
  | reserve a priority n existing container =>
    exact outcome_reserve sound a priority n existing container
  | move a r source target => exact outcome_move sound a r source target
  | _ => exact outcome_elsewhere sound.toCoherent (by simp) (by simp)

end World
end ClusterLedger
