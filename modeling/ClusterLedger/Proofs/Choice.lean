import ClusterLedger.Proofs.ByteOrder
import ClusterLedger.Proofs.Slots
/- Which reservation an attempt picks to give up. Whether its node exists is asked of a lookup that may
   have lost nodes which hold reservations still; the search does not go on to another node then. -/
namespace ClusterLedger

theorem find?_first {κ : Type u} {ν : Type v} [Ord κ] [Std.TransOrd κ] {l : List (κ × ν)}
    (sorted : l.Pairwise fun a b => compare a.1 b.1 = .lt) {test : κ × ν → Bool} {e : κ × ν} :
    l.find? test = some e ↔
      e ∈ l ∧ test e ∧ ∀ e' ∈ l, compare e'.1 e.1 = .lt → test e' = false := by
  induction l with
  | nil => simp
  | cons head tail ih =>
    obtain ⟨below, rest⟩ := List.pairwise_cons.mp sorted
    cases passes : test head with
    | true =>
      rw [List.find?_cons_of_pos passes]
      constructor
      · rintro ⟨⟩
        refine ⟨List.mem_cons_self, passes, fun e' member less => ?_⟩
        rcases List.mem_cons.mp member with rfl | later
        · simp at less
        · simp [Std.OrientedCmp.gt_of_lt (below e' later)] at less
      · rintro ⟨member, _, first⟩
        rcases List.mem_cons.mp member with rfl | later
        · rfl
        · rw [first head List.mem_cons_self (below e later)] at passes
          simp at passes
    | false =>
      rw [List.find?_cons_of_neg (by simp [passes]), ih rest]
      constructor
      · rintro ⟨member, hit, first⟩
        refine ⟨List.mem_cons_of_mem _ member, hit, fun e' among less => ?_⟩
        rcases List.mem_cons.mp among with rfl | later
        · exact passes
        · exact first e' later less
      · rintro ⟨member, hit, first⟩
        refine ⟨?_, hit, fun e' later => first e' (List.mem_cons_of_mem _ later)⟩
        rcases List.mem_cons.mp member with rfl | later
        · simp [passes] at hit
        · exact later

namespace World

/-- The attempt's reservation at the node has at least the size that is needed, as its calculator sees
    it, and no reservation of the attempt at that priority and a node before it has. -/
structure FirstCover (w : World) (a : AttemptId) (s : Attempt) (priority : Priority)
    (need cluster : Resource) (n : NodeId) (r : RecordId) : Prop where
  reserved : w.reservation? a ⟨priority, n⟩ = some r
  covers : s.calculator.atMost cluster need (w.record r).reservedResource
  earlier : ∀ m x, w.reservation? a ⟨priority, m⟩ = some x → m.bytes < n.bytes →
    s.calculator.atMost cluster need (w.record x).reservedResource = false

/-- What a lookup shows of the world that knows only some of the nodes. -/
def shown (w : World) (known : NodeId → Bool) : World :=
  { w with nodes := w.nodes.filter fun n _ => known n }

def pickAmong (w : World) (known : NodeId → Bool) (a : AttemptId) (priority : Priority)
    (need cluster : Resource) : Option RecordId × World :=
  let (picked, after) := (w.shown known).findToUnreserve a priority need cluster
  (picked, { after with nodes := w.nodes })

variable {w : World} {a : AttemptId} {s : Attempt} {priority : Priority} {need cluster : Resource}
  {n : NodeId} {r : RecordId}

theorem shown_contains (known : NodeId → Bool) :
    (w.shown known).nodes.contains n = (w.nodes.contains n && known n) := by
  unfold shown Table.contains
  rw [Table.get?_filter]
  cases w.nodes.get? n with
  | none => rfl
  | some node => cases known n <;> simp

theorem pickAmong_all : w.pickAmong (fun _ => true) a priority need cluster =
    w.findToUnreserve a priority need cluster := by
  have same : w.shown (fun _ => true) = w := by
    simp [shown, Table.filter]
  have kept : (w.findToUnreserve a priority need cluster).2.nodes = w.nodes := by
    unfold findToUnreserve
    split
    · rfl
    · split
      · rfl
      · split <;> rfl
  rw [pickAmong, same, ← kept]

theorem nodeToUnreserve_first : w.nodeToUnreserve s priority need cluster = some (n, r) ↔
    (n, r) ∈ s.reservationsAt priority ∧
      s.calculator.atMost cluster need (w.record r).reservedResource = true ∧
      ∀ m x, (m, x) ∈ s.reservationsAt priority → m.bytes < n.bytes →
        s.calculator.atMost cluster need (w.record x).reservedResource = false := by
  simp only [nodeToUnreserve, find?_first (s.reservationsAt_ascending priority), Prod.forall,
    Name.compare_lt_iff_bytes]

theorem nodeToUnreserve_iff (found : w.attempts.get? a = some s) :
    w.nodeToUnreserve s priority need cluster = some (n, r) ↔
      w.FirstCover a s priority need cluster n r := by
  have listed : ∀ m x, (m, x) ∈ s.reservationsAt priority ↔
      w.reservation? a ⟨priority, m⟩ = some x := by
    simp [Attempt.mem_reservationsAt, reservation?, found]
  simp only [nodeToUnreserve_first, listed]
  constructor
  · rintro ⟨reserved, covers, earlier⟩
    exact ⟨reserved, covers, earlier⟩
  · rintro ⟨reserved, covers, earlier⟩
    exact ⟨reserved, covers, earlier⟩

def credit (w : World) (a : AttemptId) (r : RecordId) : World :=
  w.updateAttempt a fun s =>
    { s with fallbackHeadroom := s.fallbackHeadroom + (w.record r).reservedResource }

theorem credit_reservation (r : RecordId) (x : AttemptId) (b : Berth) :
    (w.credit a r).reservation? x b = w.reservation? x b := by
  simp only [reservation?, credit, updateAttempt_attempts]
  split
  · rename_i same
    subst same
    cases w.attempts.get? x <;> rfl
  · rfl

theorem unreserve_of_reservation (there : w.reservation? a ⟨priority, n⟩ = some r) :
    (w.unreserve a priority n).1 = true := by
  obtain ⟨s, found, indexed⟩ := Option.bind_eq_some_iff.mp there
  simp only [unreserve, found, indexed]

theorem pickAmong_none (found : w.attempts.get? a = some s) (known : NodeId → Bool)
    (none : w.nodeToUnreserve s priority need cluster = none) :
    w.pickAmong known a priority need cluster = (.none, w) := by
  have none' : (w.shown known).nodeToUnreserve s priority need cluster = .none := none
  have found' : (w.shown known).attempts.get? a = some s := found
  simp only [pickAmong, findToUnreserve, found', none']
  rfl

theorem pickAmong_some (found : w.attempts.get? a = some s) (known : NodeId → Bool)
    (first : w.nodeToUnreserve s priority need cluster = some (n, r))
    (stands : w.nodes.contains n = true) : w.pickAmong known a priority need cluster =
      if known n then (some r, w.credit a r) else (none, w) := by
  have first' : (w.shown known).nodeToUnreserve s priority need cluster = some (n, r) := first
  have found' : (w.shown known).attempts.get? a = some s := found
  simp only [pickAmong, findToUnreserve, found', first', shown_contains, stands, Bool.true_and]
  split <;> rfl

/-- In any state that is reached, a reservation is picked if and only if one has the size that is
    needed and the lookup knows the first node, in the order of bytes, with such a one. It is the one
    of that node, in index and slot. Its size is credited, and nothing else changes: the attempt can
    give the reservation up then. -/
theorem picks_first_cover {start : World} (opening : start.Opening) (calls : List Call)
    (found : (start.after calls).attempts.get? a = some s) (known : NodeId → Bool)
    (priority : Priority) (need cluster : Resource) :
    let w := start.after calls
    let picked := (w.pickAmong known a priority need cluster).1
    let after := (w.pickAmong known a priority need cluster).2
    (picked.isSome ↔ ∃ n r, w.FirstCover a s priority need cluster n r ∧ known n = true) ∧
      (picked = none → after = w) ∧
      ∀ r, picked = some r → after = w.credit a r ∧ ∃ n, known n = true ∧
        w.FirstCover a s priority need cluster n r ∧ w.slot? n = some ⟨a, priority, r⟩ ∧
        (after.unreserve a priority n).1 = true := by
  intro w
  have sound : w.Sound := opening.sound.after calls
  have firsts : ∀ n r, w.nodeToUnreserve s priority need cluster = some (n, r) ↔ _ :=
    fun n r => nodeToUnreserve_iff found
  cases search : w.nodeToUnreserve s priority need cluster with
  | none =>
    rw [pickAmong_none found known search]
    refine ⟨⟨by simp, ?_⟩, fun _ => rfl, by simp⟩
    rintro ⟨n, r, first, _⟩
    exact absurd (search.symm.trans ((firsts n r).mpr first)) (by simp)
  | some hit =>
    obtain ⟨n, r⟩ := hit
    have first := (firsts n r).mp search
    have slot := sound.agree.mpr first.reserved
    have stands : w.nodes.contains n = true := by
      obtain ⟨node, offered, _⟩ := Option.bind_eq_some_iff.mp slot
      rw [Table.contains, offered]
      rfl
    have only : ∀ m x, w.FirstCover a s priority need cluster m x → m = n := fun m x other =>
      (Prod.mk.inj (Option.some.inj (((firsts m x).mpr other).symm.trans search))).1
    rw [pickAmong_some found known search stands]
    by_cases seen : known n = true
    · rw [if_pos seen]
      refine ⟨⟨fun _ => ⟨n, r, first, seen⟩, fun _ => rfl⟩, by simp, ?_⟩
      rintro _ ⟨⟩
      exact ⟨rfl, n, seen, first, slot,
        unreserve_of_reservation ((credit_reservation r a _).trans first.reserved)⟩
    · rw [if_neg seen]
      refine ⟨⟨by simp, ?_⟩, fun _ => rfl, by simp⟩
      rintro ⟨m, x, other, seen'⟩
      exact absurd (only m x other ▸ seen') seen

/-- The second reservation is the first of the size, since it was made again with more. The lookup has
    lost the node of the other one, which the search does not ask for. -/
theorem picks_first_cover_sample :
    let calls : List Call := [
      .reserve ⟨"a"⟩ ⟨1⟩ ⟨"n1"⟩ none ⟨⟨"c1"⟩, ⟨"n1"⟩, ⟨1024, 1⟩, ⟨1⟩, false, none⟩,
      .reserve ⟨"a"⟩ ⟨1⟩ ⟨"n2"⟩ none ⟨⟨"c2"⟩, ⟨"n2"⟩, ⟨1024, 1⟩, ⟨1⟩, false, none⟩,
      .reserve ⟨"a"⟩ ⟨1⟩ ⟨"n2"⟩ (some ⟨1⟩) ⟨⟨"c2"⟩, ⟨"n2"⟩, ⟨4096, 1⟩, ⟨1⟩, false, none⟩]
    let w := sample.after calls
    let known : NodeId → Bool := fun n => n.text != "n1"
    w.pickAmong known ⟨"a"⟩ ⟨1⟩ ⟨2048, 1⟩ ⟨16384, 16⟩ = (some ⟨1⟩, w.credit ⟨"a"⟩ ⟨1⟩) ∧
      w.slot? ⟨"n2"⟩ = some ⟨⟨"a"⟩, ⟨1⟩, ⟨1⟩⟩ ∧ (w.record ⟨1⟩).reservedResource = ⟨4096, 1⟩ := by
  intro calls w known
  obtain ⟨s, found⟩ : ∃ s, w.attempts.get? ⟨"a"⟩ = some s := Option.isSome_iff_exists.mp (by decide)
  obtain ⟨_, _, held⟩ := picks_first_cover sample_opening calls found known ⟨1⟩ ⟨2048, 1⟩ ⟨16384, 16⟩
  have picked : (w.pickAmong known ⟨"a"⟩ ⟨1⟩ ⟨2048, 1⟩ ⟨16384, 16⟩).1 = some ⟨1⟩ := by
    decide +kernel
  obtain ⟨credited, n, _, first, slot, _⟩ := held ⟨1⟩ picked
  have berth : n = ⟨"n2"⟩ := by
    have only : w.reservation? ⟨"a"⟩ ⟨⟨1⟩, ⟨"n2"⟩⟩ = some ⟨1⟩ := by decide +kernel
    have sound : w.Sound := sample_opening.sound.after calls
    exact congrArg Berth.node (sound.berth_unique first.reserved only).2
  exact ⟨Prod.ext picked credited, berth ▸ slot, by decide +kernel⟩

end World
end ClusterLedger
