import ClusterLedger.Proofs.History
import ClusterLedger.Proofs.Slots
/- What reservations and moves come to in the books, whatever the slots of nodes hold. Nodes can be
   taken for others of the same name, so the slot that is at hand need not tell what the index has. -/
namespace ClusterLedger

namespace World
variable {w m w' : World} {a : AttemptId} {s s' : Attempt} {b : Berth} {r : RecordId}

/-- A reservation is made again and taken for the one that it displaces: its size goes off twice and
    it is counted no longer, but it stays in the index. -/
structure Doubles (w w' : World) (a : AttemptId) (s s' : Attempt) (b : Berth) (r : RecordId)
    (partition : Partition) (resource : Resource) : Prop extends
    Turn w w' a s s' (fun u =>
      ((u.decrease .reserved (w.record r).partition (w.record r).reservedResource).decrease
        .reserved (w.record r).partition (w.record r).reservedResource).increase
          .reserved partition resource) (.unreserving (w.record r).reservedResource) where
  found : s.reservations.get? b = some r
  live : s'.live = s.live
  undelivered : s'.undelivered = s.undelivered
  reservations : s'.reservations = s.reservations
  knows : ∀ x, w'.Knows x ↔ w.Knows x
  records : ∀ x, w'.record x =
    if x = r then { w.record r with partition }.reserve resource b.node b.priority else w.record x

/-- What a reservation comes to. `gone` is the berth that the last record of the slot had; the index
    may or may not have something there. -/
inductive Seating (w w' : World) (a : AttemptId) (b : Berth) (r : RecordId) (gone : Option Berth) :
    Prop
  | enlists {s s' record} (absent : ∀ b', gone = some b' → s.reservations.get? b' = none) :
    Enlists w w' a s s' b r record → Seating w w' a b r gone
  | replaces {m s s' s'' b' x record} (left : gone = some b') (near : b'.node = b.node) :
    Drops w m a s s' b' x → Enlists m w' a s' s'' b r record → Seating w w' a b r gone
  | remakes {s s' partition resource} (absent : ∀ b', gone = some b' → s.reservations.get? b' = none) :
    Remakes w w' a s s' b r partition resource → Seating w w' a b r gone
  | remakesBeside {m s s' s'' b' x partition resource} (near : b'.node = b.node) (other : b' ≠ b) :
    Drops w m a s s' b' x → Remakes m w' a s' s'' b r partition resource → Seating w w' a b r gone
  | doubles {s s' partition resource} (left : gone = some b) :
    Doubles w w' a s s' b r partition resource → Seating w w' a b r gone

theorem retireDisplaced_cases (m : World) (s : Attempt) (n : NodeId) (slot : Option Slot)
    (r : RecordId) :
    (m.retireDisplaced s n slot r = m ∧
      ∀ b', outdone slot n r = some b' → s.reservations.get? b' = none) ∨
    ∃ b' x, outdone slot n r = some b' ∧ b'.node = n ∧ s.reservations.get? b' = some x ∧
      m.retireDisplaced s n slot r = m.retire s b' x := by
  cases slot with
  | none => exact .inl ⟨rfl, by simp [outdone]⟩
  | some held =>
    by_cases own : held.record = r
    · exact .inl ⟨by simp [retireDisplaced, own], by simp [outdone, Option.filter_some, own]⟩
    · have gone : outdone (some held) n r = some ⟨held.priority, n⟩ := by
        simp [outdone, own]
      cases found : s.reservations.get? ⟨held.priority, n⟩ with
      | none =>
        refine .inl ⟨by simp [retireDisplaced, own, found], fun b' left => ?_⟩
        obtain rfl := Option.some.inj (gone.symm.trans left)
        exact found
      | some x =>
        exact .inr ⟨_, x, gone, rfl, found, by simp [retireDisplaced, own, found]⟩

theorem reserveFresh_seating (coherent : w.Coherent) (before : w.attempts.get? a = some s)
    {priority : Priority} {node : Node} {container : Container}
    (idFree : s.live.get? container.id = none)
    (answer : w.reserveFresh s priority node container = (.ok r, w')) :
    Seating w w' a ⟨priority, node.id⟩ r (outdone node.slot node.id r) := by
  have named := coherent.attemptNamed before
  obtain ⟨fresh, filled, made, taken, _, rfl⟩ := reserveFresh_made answer
  have unknown : ¬ w.Knows r := by simp [← taken, Knows, addRecord]
  have knows := fun x => taken ▸ addRecord_knows w x fresh
  have records := fun x => taken ▸ addRecord_record w x fresh
  have base := ((turn_refl before).addRecord fresh).addNode filled
  rcases retireDisplaced_cases ((w.addRecord fresh).2.addNode filled) s node.id node.slot r with
    ⟨idle, absent⟩ | ⟨b', x, left, near, found, retired⟩
  · rw [idle]
    obtain ⟨s', enlists⟩ := enlist_enlists (b := ⟨priority, node.id⟩) (turn_refl before) base named
      container.resource (made ▸ idFree) (made ▸ named) unknown knows records
    exact .enlists absent enlists
  · rw [retired]
    have stands : w.reservation? a b' = some x := by
      simp [reservation?, before, found]
    have other : x ≠ r := by
      rintro rfl
      exact unknown (coherent.stands stands).1
    have kept : (w.addRecord fresh).2.record x = w.record x := (records x).trans (if_neg other)
    have drops := retire_drops named before found (f := id) ⟨rfl, rfl, rfl, rfl, rfl, rfl⟩
    have dropped := base.retire named b' x
    simp only [addNode_record, kept] at dropped
    obtain ⟨s', enlists⟩ := enlist_enlists (b := ⟨priority, node.id⟩) drops.toTurn dropped named
      container.resource (made ▸ idFree) (made ▸ named) unknown knows records
    exact .replaces left near drops enlists

theorem reserveAgain_seating (coherent : w.Coherent) (before : w.attempts.get? a = some s)
    {priority : Priority} {node : Node} {resource : Resource} {r' : RecordId}
    (there : s.reservations.get? ⟨priority, node.id⟩ = some r)
    (answer : w.reserveAgain s priority node resource r = (.ok r', w')) :
    r' = r ∧ Seating w w' a ⟨priority, node.id⟩ r (outdone node.slot node.id r) := by
  have named := coherent.attemptNamed before
  obtain ⟨rfl, filled, _, rfl⟩ := reserveAgain_made answer
  refine ⟨rfl, ?_⟩
  generalize berth : (⟨priority, node.id⟩ : Berth) = b at there ⊢
  obtain rfl : priority = b.priority := congrArg Berth.priority berth
  have stands : w.reservation? a b = some r' := by
    simp [reservation?, before, there]
  have known := (coherent.stands stands).1
  have base := (turn_refl before).addNode filled
  rcases retireDisplaced_cases (w.addNode filled) s node.id node.slot r' with
    ⟨idle, absent⟩ | ⟨b', x, left, near, found, retired⟩
  · rw [idle]
    obtain ⟨s', remakes⟩ := renew_remakes (turn_refl before) base named known there node.partition
      resource (fun _ => .rfl) fun _ => rfl
    exact .remakes absent remakes
  · rw [retired]
    have dropped := base.retire named b' x
    by_cases other : b' = b
    · subst other
      obtain rfl : x = r' := Option.some.inj (found.symm.trans there)
      have known' : (((w.addNode filled).retire s b' x).renew s b'.priority node.partition x).Knows
          x := (renew_knows b'.priority node.partition x x).mpr known
      have written := renew_record (s := s) (m := (w.addNode filled).retire s b' x) known b'.priority
        node.partition
      have whole := (dropped.renew named b'.priority node.partition x).settle named known' b' resource
      rw [written, if_pos rfl] at whole
      refine .doubles left ⟨whole, found, rfl, rfl, ?_, ?_, ?_⟩
      · refine Table.eq_of_lookup fun k => ?_
        simp only [Attempt.countReReservation, Attempt.without, Table.lookup_insert, Table.lookup_erase]
        grind
      · intro y
        exact (settle_knows b' resource x y).trans (renew_knows b'.priority node.partition x y)
      · intro y
        simp only [settle_record known', written, ↓reduceIte]
        split <;> rfl
    · have drops := retire_drops named before found (f := id) ⟨rfl, rfl, rfl, rfl, rfl, rfl⟩
      have still : (s.without b' (w.record x)).reservations.get? b = some r' := by
        simp only [Attempt.without, Table.lookup_erase, if_neg (Ne.symm other), there]
      obtain ⟨s', remakes⟩ := renew_remakes drops.toTurn dropped named known still node.partition
        resource (fun _ => .rfl) fun _ => rfl
      exact .remakesBeside (near.trans (congrArg Berth.node berth)) other drops remakes

theorem reserve_seating (coherent : w.Coherent) (filed : w.Filed) {priority : Priority} {n : NodeId}
    {existing : Option RecordId} {container : Container}
    (answer : w.reserve a priority n existing container = .ok (r, w')) :
    Seating w w' a ⟨priority, n⟩ r (outdone (w.slot? n) n r) := by
  obtain ⟨s, node, before, offered, idFree, made⟩ := reserve_made answer
  obtain rfl := filed.nodes n node offered
  have slot : w.slot? node.id = node.slot := by
    simp [slot?, offered]
  rw [slot]
  rcases made with fresh | ⟨old, there, again⟩
  · exact reserveFresh_seating coherent before idFree fresh
  · obtain ⟨rfl, seating⟩ := reserveAgain_seating coherent before there again
    exact seating

theorem reserve_fills {node filled : Node} {priority : Priority} {displaced : Option Slot}
    (filling : node.reserve a priority r = .ok (displaced, filled)) :
    (∀ held, node.slot = some held → held.attempt = a) ∧ filled.id = node.id ∧
      filled.slot = some ⟨a, priority, r⟩ := by
  unfold Node.reserve at filling
  split at filling
  · rename_i vacant
    obtain ⟨_, rfl⟩ := Prod.mk.inj (Except.ok.inj filling)
    simp [vacant]
  · rename_i held at_
    split at filling
    · rename_i same
      obtain ⟨_, rfl⟩ := Prod.mk.inj (Except.ok.inj filling)
      simp [at_, same]
    · simp at filling

theorem reserve_slots (filed : w.Filed) {priority : Priority} {n : NodeId}
    {existing : Option RecordId} {container : Container}
    (answer : w.reserve a priority n existing container = .ok (r, w')) :
    (∀ held, w.slot? n = some held → held.attempt = a) ∧
      ∀ k, w'.slot? k = if k = n then some ⟨a, priority, r⟩ else w.slot? k := by
  obtain ⟨s, node, before, offered, _, made⟩ := reserve_made answer
  obtain rfl := filed.nodes n node offered
  obtain rfl := filed.attempts a s before
  obtain ⟨filled, filling, nodes⟩ : ∃ filled, node.reserve s.id priority r = .ok (node.slot, filled) ∧
      w'.nodes = w.nodes.insert filled.id filled := by
    rcases made with fresh | ⟨old, _, again⟩
    · obtain ⟨_, filled, _, _, filling, rfl⟩ := reserveFresh_made fresh
      exact ⟨filled, filling, retireDisplaced_nodes _ _ _⟩
    · obtain ⟨rfl, filled, filling, rfl⟩ := reserveAgain_made again
      exact ⟨filled, filling, retireDisplaced_nodes _ _ _⟩
  obtain ⟨holder, named, slot⟩ := reserve_fills filling
  refine ⟨fun held at_ => holder held (by simpa [slot?, offered] using at_), fun k => ?_⟩
  simp only [slot?, nodes, Table.lookup_insert, named]
  split
  · exact slot
  · rfl

theorem move_reseating (coherent : w.Coherent) (filed : w.Filed) (a : AttemptId) (r : RecordId)
    (source target : NodeId) : w.moveReservation a r source target = (false, w) ∨
      ∃ w' s s' priority, w.moveReservation a r source target = (true, w') ∧
        (w.record r).reservedPriority = some priority ∧ source ≠ target ∧
        Reseats w w' a s s' ⟨priority, source⟩ target r ∧
        (∃ held, w.slot? source = some held ∧ held.record = r) ∧ w.slot? target = none ∧
        ∀ n, w'.slot? n = if n = target then some ⟨a, priority, r⟩
          else if n = source then none else w.slot? n := by
  simp only [moveReservation]
  split
  · rename_i s sourceNode targetNode before offered wanted
    split
    · exact .inl rfl
    · rename_i priority placed
      split
      · rename_i may
        obtain ⟨_, heldBy, found⟩ := may
        split
        · exact .inl rfl
        · rename_i filled answer
          obtain ⟨vacant, rfl⟩ : targetNode.slot = none ∧
              { targetNode with slot := some ⟨a, priority, r⟩ } = filled := by
            unfold Node.reserveVacant at answer
            split at answer
            · rename_i vacant
              exact ⟨vacant, Except.ok.inj answer⟩
            · simp at answer
          obtain ⟨held, slot, same⟩ : ∃ held, sourceNode.slot = some held ∧ held.record = r := by
            simpa [Node.heldBy, Option.any_eq_true] using heldBy
          have known : w.Knows r := by
            refine (coherent.stands (a := a) (b := ⟨priority, source⟩) ?_).1
            simp [reservation?, before, found]
          obtain ⟨s', reseats⟩ := move_reseats (b := ⟨priority, source⟩) before known found target
            { targetNode with slot := some ⟨a, priority, r⟩ }
          -- A slot that holds the record is not vacant.
          have apart : source ≠ target := by
            rintro rfl
            obtain rfl := Option.some.inj (offered.symm.trans wanted)
            simp [vacant] at slot
          refine .inr ⟨_, s, s', priority, rfl, placed, apart, reseats, ⟨held, ?_, same⟩, ?_, ?_⟩
          · simp [slot?, offered, slot]
          · simp [slot?, wanted, vacant]
          · intro n
            have named := filed.nodes target targetNode wanted
            have nodes : ((w.addNode { targetNode with slot := some ⟨a, priority, r⟩ }).updateNode
                source (·.vacate r)).nodes.get? n =
                if n = target then some { targetNode with slot := some ⟨a, priority, r⟩ }
                else if n = source then some { sourceNode with slot := none }
                else w.nodes.get? n := by
              simp only [updateNode_nodes, addNode_nodes, named, apart, ↓reduceIte, offered,
                Option.map_some, Node.vacate, heldBy]
              by_cases here : n = source
              · simp [here, apart]
              · simp [here]
            refine (congrArg (·.bind Node.slot) nodes).trans ?_
            unfold slot?
            grind
      · exact .inl rfl
  · exact .inl rfl

theorem Coherent.doubles {partition resource} (coherent : w.Coherent)
    (step : Doubles w w' a s s' b r partition resource) : w'.Coherent := by
  have owner := (coherent.stands ((step.reservation?_before b).trans step.found)).2.owner
  exact coherent.restands step.toTurn step.found step.live step.undelivered step.reservations
    step.knows step.records ⟨owner, rfl, rfl, rfl⟩

theorem Seating.coherent {gone : Option Berth} (seating : Seating w w' a b r gone)
    (coherent : w.Coherent) : w'.Coherent := by
  cases seating with
  | enlists _ step => exact coherent.enlists step
  | replaces _ _ first second => exact (coherent.drops first).enlists second
  | remakes _ step => exact coherent.remakes step
  | remakesBeside _ _ first second => exact (coherent.drops first).remakes second
  | doubles _ step => exact coherent.doubles step

theorem Seating.seated {gone : Option Berth} (seating : Seating w w' a b r gone) :
    w'.reservation? a b = some r := by
  cases seating with
  | enlists _ step => rw [step.reservation?, if_pos rfl, step.reservations, Table.lookup_insert, if_pos rfl]
  | replaces _ _ _ step =>
    rw [step.reservation?, if_pos rfl, step.reservations, Table.lookup_insert, if_pos rfl]
  | remakes _ step => rw [step.reservation?, if_pos rfl, step.reservations, step.found]
  | remakesBeside _ _ _ step => rw [step.reservation?, if_pos rfl, step.reservations, step.found]
  | doubles _ step => rw [step.reservation?, if_pos rfl, step.reservations, step.found]

theorem Coherent.perform (coherent : w.Coherent) (filed : w.Filed) (c : Call) :
    (w.perform c).Coherent := by
  cases c with
  | reserve a priority n existing container =>
    cases answer : w.reserve a priority n existing container with
    | error e => rwa [World.perform_refused answer]
    | ok result =>
      rw [World.perform_reserved answer]
      exact (reserve_seating coherent filed answer).coherent coherent
  | move a r source target =>
    rcases move_reseating coherent filed a r source target with
      same | ⟨w', s, s', _, moved, _, _, step, _⟩
    · simpa [World.perform, same] using coherent
    · simp only [World.perform, moved]
      exact coherent.reseats step
  | _ => refine (outcome_elsewhere coherent ?_ ?_).coherent coherent <;> simp

theorem Coherent.undergo (coherent : w.Coherent) (filed : w.Filed) (e : Event) :
    (w.undergo e).Coherent := by
  cases e with
  | call c => exact coherent.perform filed c
  | refit nodes => exact coherent.beside rfl rfl (fun _ => .rfl) fun _ => rfl

end World
end ClusterLedger
