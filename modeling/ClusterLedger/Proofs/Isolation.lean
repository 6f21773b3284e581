import ClusterLedger.Proofs.Seating
/- Isolation: a call of one attempt leaves all other attempts, the records that they made, the slots
   that they hold and the queues of others, whatever handles, nodes and names it is given. Only
   indices and owners of slots keep it from records of others, since handles are taken from anyone. -/
namespace ClusterLedger.World

def Honest (w : World) (held : Slot) : Prop :=
  w.Knows held.record ∧ (w.record held.record).attempt = held.attempt

def HonestSlots (w : World) : Prop := ∀ n held, w.slot? n = some held → w.Honest held

/-- Nodes come in as they were left: what their slots hold, the holders made. -/
def Admits (w : World) : Event → Prop
  | .refit nodes => ∀ node ∈ nodes, ∀ held, node.slot = some held → w.Honest held
  | .call _ => True

/-- What stays of everyone but the actor. A queue is others' if the actor is not one of its
    attempts. -/
structure Spares (w w' : World) (actor : Option AttemptId) : Prop where
  attempts : ∀ b, actor ≠ some b → w'.attempts.get? b = w.attempts.get? b
  records : ∀ x, w.Knows x → actor ≠ some (w.record x).attempt →
    w'.Knows x ∧ w'.record x = w.record x
  slots : ∀ n held, w.slot? n = some held → actor ≠ some held.attempt → w'.slot? n = some held
  queues : ∀ q, (∀ a s, actor = some a → w.attempts.get? a = some s → s.queue ≠ q) →
    w'.queues.get? q = w.queues.get? q

def KeepsRecords (w w' : World) (a : AttemptId) : Prop :=
  ∀ x, w.Knows x → w'.Knows x ∧ (w'.record x).attempt = (w.record x).attempt ∧
    ((w.record x).attempt ≠ a → w'.record x = w.record x)

/-- A slot that changes was vacant or the attempt's own, and holds nothing then, or what the attempt
    made. -/
def KeepsSlots (w w' : World) (a : AttemptId) : Prop :=
  ∀ n, w'.slot? n = w.slot? n ∨ (∀ held, w.slot? n = some held → held.attempt = a) ∧
    ∀ held, w'.slot? n = some held → held.attempt = a ∧ w'.Honest held

structure Confined (w w' : World) (a : AttemptId) : Prop where
  turn : ∃ s s' postings notes, Turn w w' a s s' postings notes
  records : KeepsRecords w w' a
  slots : KeepsSlots w w' a

variable {w m w' : World} {a : AttemptId} {s s' : Attempt} {b : Berth} {r : RecordId}
  {postings : Usage → Usage} {notes : QueueMetrics → QueueMetrics}

theorem keepsRecords_same (knows : ∀ x, w'.Knows x ↔ w.Knows x)
    (records : ∀ x, w'.record x = w.record x) : KeepsRecords w w' a := by
  intro x known
  rw [records]
  exact ⟨(knows x).mpr known, rfl, fun _ => rfl⟩

theorem keepsRecords_new {record : Record} (fresh : ¬ w.Knows r)
    (knows : ∀ x, w'.Knows x ↔ w.Knows x ∨ x = r)
    (records : ∀ x, w'.record x = if x = r then record else w.record x) : KeepsRecords w w' a := by
  intro x known
  have other : x ≠ r := by
    rintro rfl
    exact fresh known
  rw [records, if_neg other]
  exact ⟨(knows x).mpr (.inl known), rfl, fun _ => rfl⟩

theorem keepsRecords_own {record : Record} (owner : (w.record r).attempt = a)
    (knows : ∀ x, w'.Knows x ↔ w.Knows x)
    (records : ∀ x, w'.record x = if x = r then record else w.record x)
    (maker : record.attempt = (w.record r).attempt) : KeepsRecords w w' a := by
  intro x known
  refine ⟨(knows x).mpr known, ?_⟩
  rw [records]
  split
  · rename_i here
    subst here
    exact ⟨maker, fun other => absurd owner other⟩
  · exact ⟨rfl, fun _ => rfl⟩

theorem KeepsRecords.trans (first : KeepsRecords w m a) (next : KeepsRecords m w' a) :
    KeepsRecords w w' a := by
  intro x known
  obtain ⟨middle, maker, same⟩ := first x known
  obtain ⟨last, maker', same'⟩ := next x middle
  refine ⟨last, maker'.trans maker, fun other => ?_⟩
  rw [same' (maker ▸ other), same other]

theorem keepsSlots_same (nodes : w'.nodes = w.nodes) : KeepsSlots w w' a :=
  fun n => .inl (slot?_same nodes n)

theorem Turn.then {s'' : Attempt} {postings' : Usage → Usage} {notes' : QueueMetrics → QueueMetrics}
    (first : Turn w m a s s' postings notes) (next : Turn m w' a s' s'' postings' notes') :
    Turn w w' a s s'' (fun u => postings' (postings u)) fun x => notes' (notes x) where
  before := first.before
  attempts b := by
    rw [next.attempts, first.attempts]
    split <;> rfl
  queues q := by
    simp only [next.queues, first.queues, first.queue, ↓reduceIte, Option.map_map]
    split <;> rfl
  named := next.named.trans first.named
  queue := next.queue.trans first.queue
  usage := by
    rw [next.usage, first.usage]

theorem Confined.spares (confined : Confined w w' a) : Spares w w' (some a) := by
  obtain ⟨⟨s, s', postings, notes, turn⟩, records, slots⟩ := confined
  refine ⟨fun b other => ?_, fun x known other => ?_, fun n held at_ other => ?_, fun q apart => ?_⟩
  · exact (turn.attempts b).trans (if_neg fun same => other (congrArg some same.symm))
  · obtain ⟨known', _, same⟩ := records x known
    exact ⟨known', same fun own => other (congrArg some own.symm)⟩
  · rcases slots n with same | ⟨own, _⟩
    · rw [same, at_]
    · exact absurd (congrArg some (own held at_).symm) other
  · exact (turn.queues q).trans (if_neg fun same => apart a s rfl turn.before same.symm)

theorem Tends.spares (tends : Tends w w') (actor : Option AttemptId) : Spares w w' actor where
  attempts b _ := by rw [tends.attempts]
  records x known _ := ⟨(tends.knows x).mpr known, tends.records x⟩
  slots n held at_ _ := (tends.slots n).trans at_
  queues q _ := by rw [tends.queues]

namespace HonestSlots

theorem confined (honest : w.HonestSlots) (confined : Confined w w' a) : w'.HonestSlots := by
  intro n held at_
  rcases confined.slots n with same | ⟨_, own⟩
  · obtain ⟨known, maker⟩ := honest n held (same ▸ at_)
    obtain ⟨known', maker', _⟩ := confined.records held.record known
    exact ⟨known', maker'.trans maker⟩
  · exact (own held at_).2

theorem tends (honest : w.HonestSlots) (tends : Tends w w') : w'.HonestSlots := by
  intro n held at_
  obtain ⟨known, maker⟩ := honest n held ((tends.slots n).symm.trans at_)
  exact ⟨(tends.knows _).mpr known, (tends.records _).symm ▸ maker⟩

theorem holder (honest : w.HonestSlots) (coherent : w.Coherent)
    (stands : w.reservation? a b = some r) {n : NodeId} {held : Slot}
    (at_ : w.slot? n = some held) (same : held.record = r) : held.attempt = a := by
  obtain ⟨_, maker⟩ := honest n held at_
  rw [← maker, same]
  exact (coherent.stands stands).2.owner

end HonestSlots

theorem Lapses.confined (honest : w.HonestSlots) (coherent : w.Coherent)
    (step : Lapses w w' a s s' b r) : Confined w w' a where
  turn := ⟨s, s', _, _, step.toTurn⟩
  records := keepsRecords_same step.knows step.records
  slots := by
    have stands := (step.reservation?_before b).trans step.found
    intro n
    by_cases here : n = b.node
    · subst here
      cases offered : w.nodes.get? b.node with
      | none => exact .inl (by simp [slot?, step.nodes, offered])
      | some node =>
        by_cases held : node.heldBy r
        · obtain ⟨slot, at_, same⟩ : ∃ slot, node.slot = some slot ∧ slot.record = r := by
            simpa [Node.heldBy, Option.any_eq_true] using held
          have there : w.slot? b.node = some slot := by
            simp [slot?, offered, at_]
          refine .inr ⟨fun other found => ?_, fun other found => ?_⟩
          · obtain rfl := Option.some.inj (there.symm.trans found)
            exact honest.holder coherent stands there same
          · simp [slot?, step.nodes, offered, Node.vacate, held] at found
        · exact .inl (by simp [slot?, step.nodes, offered, Node.vacate, held])
    · exact .inl (by simp [slot?, step.nodes, here])

theorem confined_elsewhere (honest : w.HonestSlots) (coherent : w.Coherent) {c : Call}
    (reserves : ∀ a priority n existing container, c ≠ .reserve a priority n existing container)
    (moves : ∀ a r source target, c ≠ .move a r source target) :
    (∃ a, c.actor = some a ∧ Confined w (w.perform c) a) ∨ Tends w (w.perform c) := by
  cases outcome_elsewhere coherent reserves moves with
  | begins step =>
    exact .inl ⟨_, rfl, ⟨_, _, _, _, step.toTurn⟩,
      keepsRecords_new step.fresh step.knows step.records, keepsSlots_same step.nodes⟩
  | ends step =>
    have owner := (coherent.runs ((step.running?_before _).trans step.found)).2.owner
    exact .inl ⟨_, rfl, ⟨_, _, _, _, step.toTurn⟩,
      keepsRecords_own owner step.knows step.records rfl, keepsSlots_same step.nodes⟩
  | relabels step =>
    have owner := (coherent.runs ((step.running?_before _).trans step.found)).2.owner
    exact .inl ⟨_, rfl, ⟨_, _, _, _, step.toTurn⟩,
      keepsRecords_own owner step.knows step.records rfl, keepsSlots_same step.nodes⟩
  | reserves => exact absurd rfl (reserves _ _ _ _ _)
  | displaces => exact absurd rfl (reserves _ _ _ _ _)
  | resizes => exact absurd rfl (reserves _ _ _ _ _)
  | lapses step => exact .inl ⟨_, rfl, step.confined honest coherent⟩
  | moves => exact absurd rfl (moves _ _ _ _)
  | delivers step =>
    refine .inl ⟨_, rfl, ⟨_, _, _, _, step.toTurn⟩, fun x known => ?_, keepsSlots_same step.nodes⟩
    refine ⟨(step.knows x).mpr known, ?_⟩
    rw [step.records]
    split
    · rename_i waits
      obtain ⟨c, runs⟩ := coherent.undelivered (step.waiting_before ▸ waits)
      refine ⟨?_, fun other => absurd (coherent.runs runs).2.owner other⟩
      unfold Record.acquire
      split <;> rfl
    · exact ⟨rfl, fun _ => rfl⟩
  | notes own _ step =>
    exact .inl ⟨_, own, ⟨_, _, _, _, step.toTurn⟩, keepsRecords_same step.knows step.records,
      keepsSlots_same step.nodes⟩
  | tends _ step => exact .inr step

theorem Seating.keepsRecords {gone : Option Berth} (seating : Seating w w' a b r gone)
    (coherent : w.Coherent) : KeepsRecords w w' a := by
  cases seating with
  | enlists _ step => exact keepsRecords_new step.fresh step.knows step.records
  | replaces _ _ first step =>
    exact (keepsRecords_same first.knows first.records).trans
      (keepsRecords_new step.fresh step.knows step.records)
  | remakes _ step =>
    have owner := (coherent.stands ((step.reservation?_before b).trans step.found)).2.owner
    exact keepsRecords_own owner step.knows step.records rfl
  | remakesBeside _ _ first step =>
    have owner :=
      ((coherent.drops first).stands ((step.reservation?_before b).trans step.found)).2.owner
    exact (keepsRecords_same first.knows first.records).trans
      (keepsRecords_own owner step.knows step.records rfl)
  | doubles _ step =>
    have owner := (coherent.stands ((step.reservation?_before b).trans step.found)).2.owner
    exact keepsRecords_own owner step.knows step.records rfl

theorem Seating.turn {gone : Option Berth} (seating : Seating w w' a b r gone) :
    ∃ s s' postings notes, Turn w w' a s s' postings notes := by
  cases seating with
  | enlists _ step => exact ⟨_, _, _, _, step.toTurn⟩
  | replaces _ _ first step => exact ⟨_, _, _, _, first.toTurn.then step.toTurn⟩
  | remakes _ step => exact ⟨_, _, _, _, step.toTurn⟩
  | remakesBeside _ _ first step => exact ⟨_, _, _, _, first.toTurn.then step.toTurn⟩
  | doubles _ step => exact ⟨_, _, _, _, step.toTurn⟩

theorem reserve_confined (coherent : w.Coherent) (filed : w.Filed) {priority : Priority} {n : NodeId}
    {existing : Option RecordId} {container : Container}
    (answer : w.reserve a priority n existing container = .ok (r, w')) : Confined w w' a := by
  have seating := reserve_seating coherent filed answer
  obtain ⟨holder, slots⟩ := reserve_slots filed answer
  refine ⟨seating.turn, seating.keepsRecords coherent, fun k => ?_⟩
  rw [slots]
  split
  · rename_i here
    subst here
    refine .inr ⟨holder, fun held at_ => ?_⟩
    obtain rfl := Option.some.inj at_
    obtain ⟨known, stands⟩ := (seating.coherent coherent).stands seating.seated
    exact ⟨rfl, known, stands.owner⟩
  · exact .inl rfl

theorem confined (honest : w.HonestSlots) (coherent : w.Coherent) (filed : w.Filed) (c : Call) :
    (∃ a, c.actor = some a ∧ Confined w (w.perform c) a) ∨ Tends w (w.perform c) := by
  cases c with
  | reserve a priority n existing container =>
    cases answer : w.reserve a priority n existing container with
    | error e =>
      rw [perform_refused answer]
      exact .inr (tends_refl w)
    | ok result =>
      rw [perform_reserved answer]
      exact .inl ⟨a, rfl, reserve_confined coherent filed answer⟩
  | move a r source target =>
    rcases move_reseating coherent filed a r source target with
      same | ⟨w', s, s', priority, moved, _, _, step, ⟨held, there, same⟩, vacant, slots⟩
    · exact .inr (by simpa [perform, same] using tends_refl w)
    · simp only [perform, moved]
      have stands := (step.reservation?_before ⟨priority, source⟩).trans step.found
      have owner := (coherent.stands stands).2.owner
      have records : KeepsRecords w w' a := keepsRecords_own owner step.knows step.records rfl
      refine .inl ⟨a, rfl, ⟨_, _, _, _, step.toTurn⟩, records, fun n => ?_⟩
      rw [slots]
      by_cases wide : n = target
      · subst wide
        rw [if_pos rfl]
        refine .inr ⟨fun other found => by simp [vacant] at found, fun other at_ => ?_⟩
        obtain rfl := Option.some.inj at_
        obtain ⟨known, maker, _⟩ := records r (coherent.stands stands).1
        exact ⟨rfl, known, maker.trans owner⟩
      · by_cases near : n = source
        · subst near
          rw [if_neg wide, if_pos rfl]
          refine .inr ⟨fun other found => ?_, fun other at_ => by simp at at_⟩
          obtain rfl := Option.some.inj (there.symm.trans found)
          exact honest.holder coherent stands there same
        · exact .inl (by rw [if_neg wide, if_neg near])
  | _ => refine confined_elsewhere honest coherent ?_ ?_ <;> simp

theorem HonestSlots.undergo (honest : w.HonestSlots) (coherent : w.Coherent) (filed : w.Filed)
    {e : Event} (admits : w.Admits e) : (w.undergo e).HonestSlots := by
  cases e with
  | call c =>
    rcases World.confined honest coherent filed c with ⟨a, _, confined⟩ | tends
    · exact honest.confined confined
    · exact honest.tends tends
  | refit nodes =>
    intro n held at_
    obtain ⟨node, found, slot⟩ := Option.bind_eq_some_iff.mp at_
    obtain ⟨other, member, same⟩ := List.mem_map.mp (Table.mem_of_ofList found)
    obtain ⟨_, rfl⟩ := Prod.mk.inj same
    exact admits other member held slot

/-- In every state that attempts can reach, with whatever nodes come and go between their calls, a
    call leaves all attempts but its own as they are, with every record that they made and every
    slot that they hold, and all queues but its own. -/
theorem others_unchanged {start : World} (opening : start.Opening) {events : List Event}
    (admitted : start.Throughout Admits events) (c : Call) :
    Spares (start.through events) ((start.through events).perform c) c.actor := by
  have coherent := opening.sound.toCoherent
  have filed := opening.filed
  have honest : start.HonestSlots := by
    intro n held at_
    obtain ⟨node, offered, slot⟩ := Option.bind_eq_some_iff.mp at_
    simp [(opening.nodes offered).2] at slot
  clear opening
  induction events generalizing start with
  | nil =>
    rcases confined honest coherent filed c with ⟨a, own, confined⟩ | tends
    · exact own ▸ confined.spares
    · exact tends.spares c.actor
  | cons e events ih =>
    exact ih admitted.2 (coherent.undergo filed e) (filed.follows (passage filed e).follows)
      (honest.undergo coherent filed admitted.1)

theorem others_unchanged_sample :
    let events : List Event := [
      .call (.reserve ⟨"b"⟩ ⟨1⟩ ⟨"n1"⟩ none ⟨⟨"c1"⟩, ⟨"n1"⟩, ⟨4096, 1⟩, ⟨1⟩, false, none⟩),
      .refit [{ id := ⟨"n1"⟩, rack := "r", partition := "x", total := ⟨8192, 8⟩
                slot := some ⟨⟨"b"⟩, ⟨1⟩, ⟨0⟩⟩ }]]
    let c : Call :=
      .reserve ⟨"a"⟩ ⟨1⟩ ⟨"n1"⟩ (some ⟨0⟩) ⟨⟨"c1"⟩, ⟨"n1"⟩, ⟨1024, 1⟩, ⟨1⟩, false, none⟩
    let w := sample.through events
    (w.perform c).slot? ⟨"n1"⟩ = some ⟨⟨"b"⟩, ⟨1⟩, ⟨0⟩⟩ ∧
      (w.perform c).attempts.get? ⟨"b"⟩ = w.attempts.get? ⟨"b"⟩ ∧
      (w.perform c).record ⟨0⟩ = w.record ⟨0⟩ := by
  intro events c w
  have admitted : sample.Throughout Admits events := by
    refine ⟨trivial, fun node member held slot => ?_, trivial⟩
    obtain rfl := List.mem_singleton.mp member
    obtain rfl := Option.some.inj slot
    exact ⟨by decide, by decide⟩
  have spares := others_unchanged sample_opening admitted c
  exact ⟨spares.slots ⟨"n1"⟩ _ (by decide) (by decide), spares.attempts ⟨"b"⟩ (by decide),
    (spares.records ⟨0⟩ (by decide) (by decide)).2⟩

end ClusterLedger.World
