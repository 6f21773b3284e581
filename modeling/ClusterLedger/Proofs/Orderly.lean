import ClusterLedger.Proofs.History
import ClusterLedger.Proofs.Shelves
/- Names and lists of an attempt in every state of every run: no name runs and is reserved at once,
   marks are on running containers, what waits for a snapshot runs under its own name, and the
   index by priority lists a priority as long as something is reserved there. -/
namespace ClusterLedger

/-- The index by priority after a deed: each entry that goes and the one that comes, in turn. -/
def Deed.file (index : Shelves) : Deed → Shelves
  | .reserves b r gone => (gone.elim index index.take).put b r
  | .frees b => index.take b
  | .begins _ | .ends _ | .marks _ | .delivers => index

namespace World
variable {w : World}

/-- The lists of an attempt fit each other, and what runs goes by its own name. -/
structure Orderly (w : World) (ρ : Roster) : Prop where
  running : ∀ id r, ρ.live.get? id = some r → w.Knows r ∧ (w.container r).id = id
  reserved : ∀ b r, ρ.reservations.get? b = some r →
    w.Knows r ∧ ρ.live.get? (w.container r).id = none
  marked : ∀ id, ρ.marks.has id = true → (ρ.live.get? id).isSome
  waits : ∀ r ∈ ρ.undelivered, ρ.live.get? (w.container r).id = some r
  distinct : (ρ.undelivered.map fun r => (w.container r).id).Nodup

namespace Orderly
variable {ρ : Roster} (orderly : w.Orderly ρ)
include orderly

theorem waits_known {r : RecordId} (waits : r ∈ ρ.undelivered) : w.Knows r :=
  (orderly.running _ r (orderly.waits r waits)).1

theorem follows {w' : World} (follows : Follows w w') : w'.Orderly ρ where
  running := by
    intro id r found
    obtain ⟨known, named⟩ := orderly.running id r found
    obtain ⟨known', same⟩ := follows.records r known
    exact ⟨known', same ▸ named⟩
  reserved := by
    intro b r found
    obtain ⟨known, idle⟩ := orderly.reserved b r found
    obtain ⟨known', same⟩ := follows.records r known
    exact ⟨known', same ▸ idle⟩
  marked := orderly.marked
  waits := by
    intro r member
    obtain ⟨_, same⟩ := follows.records r (orderly.waits_known member)
    rw [same]
    exact orderly.waits r member
  distinct := by
    have same : ρ.undelivered.map (fun r => (w'.container r).id) =
        ρ.undelivered.map fun r => (w.container r).id :=
      List.map_congr_left fun r member =>
        congrArg Container.id (follows.records r (orderly.waits_known member)).2
    exact same ▸ orderly.distinct

theorem within {ρ' : Roster} (within : ρ'.Within ρ) : w.Orderly ρ' where
  running := within.live ▸ orderly.running
  reserved b r found := within.live ▸ orderly.reserved b r (within.reservations b r found)
  marked := within.live ▸ within.marks ▸ orderly.marked
  waits := within.live ▸ within.undelivered ▸ orderly.waits
  distinct := within.undelivered ▸ orderly.distinct

theorem reserve {r : RecordId} (known : w.Knows r)
    (idle : ρ.live.get? (w.container r).id = none) (b : Berth) : w.Orderly (ρ.reserve b r) where
  running := orderly.running
  reserved := by
    intro b' r' found
    simp only [Roster.reserve, Table.lookup_insert] at found
    split at found
    · exact Option.some.inj found ▸ ⟨known, idle⟩
    · exact orderly.reserved b' r' found
  marked := orderly.marked
  waits := orderly.waits
  distinct := orderly.distinct

theorem begin {id : ContainerId} {r : RecordId} (known : w.Knows r) (named : (w.container r).id = id)
    (idFree : ρ.live.get? id = none)
    (unreserved : ∀ b x, ρ.reservations.get? b = some x → (w.container x).id ≠ id) :
    w.Orderly (ρ.begin id r) where
  running := by
    intro id' r' found
    simp only [Roster.begin, Table.lookup_insert] at found
    split at found
    · rename_i same
      exact Option.some.inj found ▸ same ▸ ⟨known, named⟩
    · exact orderly.running id' r' found
  reserved := by
    intro b x found
    obtain ⟨known, idle⟩ := orderly.reserved b x found
    simp only [Roster.begin, Table.lookup_insert, unreserved b x found, ↓reduceIte]
    exact ⟨known, idle⟩
  marked := by
    intro id' has
    simp only [Roster.begin, Table.lookup_insert]
    split
    · rfl
    · exact orderly.marked id' has
  waits := by
    intro r' member
    simp only [Roster.begin, Table.lookup_insert]
    rcases List.mem_append.mp member with old | new
    · have at_ := orderly.waits r' old
      rw [if_neg fun same => by simp [same, idFree] at at_]
      exact at_
    · rw [List.mem_singleton.mp new, named, if_pos rfl]
  distinct := by
    simp only [Roster.begin, List.map_append, List.map_cons, List.map_nil]
    refine List.Nodup.append orderly.distinct (List.nodup_singleton _) ?_
    intro taken old new
    obtain ⟨r', member, rfl⟩ := List.mem_map.mp old
    have at_ := orderly.waits r' member
    simp only [List.mem_singleton, named] at new
    simp [new, idFree] at at_

theorem drop (id : ContainerId) : w.Orderly
    (ρ.drop id (ρ.undelivered.filter fun r => (w.container r).id != id)) where
  running := by
    intro id' r found
    simp only [Roster.drop, Table.lookup_erase] at found
    split at found
    · simp at found
    · exact orderly.running id' r found
  reserved := by
    intro b r found
    obtain ⟨known, idle⟩ := orderly.reserved b r found
    simp only [Roster.drop, Table.lookup_erase]
    exact ⟨known, by split <;> simp [idle]⟩
  marked := by
    intro id' has
    simp only [Roster.drop, Marks.has_unmark, Bool.and_eq_true, decide_eq_true_eq] at has
    simp only [Roster.drop, Table.lookup_erase, if_neg has.1]
    exact orderly.marked id' has.2
  waits := by
    intro r member
    simp only [Roster.drop, List.mem_filter, bne_iff_ne, ne_eq] at member
    simp only [Roster.drop, Table.lookup_erase, if_neg member.2]
    exact orderly.waits r member.1
  distinct := orderly.distinct.sublist (List.filter_sublist.map _)

theorem mark {id : ContainerId} (live : (ρ.live.get? id).isSome) : w.Orderly (ρ.mark id) where
  running := orderly.running
  reserved := orderly.reserved
  marked := by
    intro id' has
    simp only [Roster.mark, Marks.has_mark, Bool.or_eq_true, decide_eq_true_eq] at has
    rcases has with rfl | old
    · exact live
    · exact orderly.marked id' old
  waits := orderly.waits
  distinct := orderly.distinct

theorem deliver : w.Orderly ρ.deliver where
  running := orderly.running
  reserved := orderly.reserved
  marked := by simp [Roster.deliver, Marks.has, Table.contains]
  waits := by simp [Roster.deliver]
  distinct := by simp [Roster.deliver]

end Orderly

theorem orderly_course {w' : World} {a : AttemptId} {d : Option Deed}
    (orderly : w.Orderly (w.roster a)) (follows : Follows w w') (course : Course w w' a d) :
    w'.Orderly (w'.roster a) := by
  have later := orderly.follows follows
  cases course with
  | begins fresh known container idFree unreserved roster =>
    rw [roster]
    refine later.begin known (by rw [container]) idFree fun b x found => ?_
    rw [(follows.records x (orderly.reserved b x found).1).2]
    exact unreserved b x found
  | @ends id live roster =>
    rw [roster]
    -- What waits is sorted out by names as they were before; known records keep theirs.
    have same : (w.roster a).undelivered.filter (fun r => (w.container r).id != id) =
        (w.roster a).undelivered.filter fun r => (w'.container r).id != id := by
      refine List.filter_congr fun r member => ?_
      rw [(follows.records r (orderly.waits_known member)).2]
    rw [same]
    exact later.drop id
  | marks live roster =>
    rw [roster]
    exact later.mark live
  | delivers roster =>
    rw [roster]
    exact later.deliver
  | @reserves b r gone roster origin =>
    have left := (w.roster a).giveUp_within gone
    rw [roster]
    have kept := later.within left
    rcases origin with ⟨b', reserved⟩ | ⟨known, idle⟩
    · obtain ⟨known, idle⟩ := later.reserved b' r reserved
      exact kept.reserve known (left.live ▸ idle) b
    · exact kept.reserve known (left.live ▸ idle) b
  | @frees b roster =>
    rw [roster]
    exact later.within ((w.roster a).unreserve_within b)
  | stays roster => exact roster ▸ later

theorem orderly_undergo (filed : w.Filed) {a : AttemptId} (orderly : w.Orderly (w.roster a))
    (e : Event) : (w.undergo e).Orderly ((w.undergo e).roster a) :=
  have passage := passage filed e
  orderly_course orderly passage.follows (passage.course a)

theorem Opening.orderly (opening : w.Opening) (a : AttemptId) : w.Orderly (w.roster a) := by
  rw [opening.roster_blank]
  constructor <;> simp [Marks.has, Table.contains]

theorem Opening.orderly_through (opening : w.Opening) (events : List Event) (a : AttemptId) :
    (w.through events).Orderly ((w.through events).roster a) :=
  through_preserves (fun w => w.Orderly (w.roster a))
    (fun _ e filed orderly => orderly_undergo filed orderly e) opening.filed (opening.orderly a)

theorem shelves_course {w' : World} {a : AttemptId} {d : Option Deed} (course : Course w w' a d) :
    Shelves.ofFlat (w'.roster a).reservations =
      d.toList.foldl Deed.file (Shelves.ofFlat (w.roster a).reservations) := by
  cases course with
  | begins fresh known container idFree unreserved roster => rw [roster]; rfl
  | ends live roster => rw [roster]; rfl
  | marks live roster => rw [roster]; rfl
  | delivers roster => rw [roster]; rfl
  | @reserves b r gone roster origin =>
    rw [roster, Roster.reserve, Shelves.ofFlat_insert]
    cases gone with
    | none => rfl
    | some b' =>
      rw [Roster.giveUp, Roster.unreserve, Shelves.ofFlat_erase]
      rfl
  | frees roster =>
    rw [roster, Roster.unreserve, Shelves.ofFlat_erase]
    rfl
  | stays roster => rw [roster]; rfl

theorem shelves_through (filed : w.Filed) (a : AttemptId) (events : List Event) :
    Shelves.ofFlat ((w.through events).roster a).reservations =
      (w.history a events).foldl Deed.file (Shelves.ofFlat (w.roster a).reservations) := by
  induction events generalizing w with
  | nil => rfl
  | cons e events ih =>
    have passage := passage filed e
    have rest := ih (filed.follows passage.follows)
    rw [shelves_course (passage.course a), ← List.foldl_append] at rest
    exact rest

theorem Opening.shelves_through (opening : w.Opening) {events : List Event} {a : AttemptId}
    {s : Attempt} (found : (w.through events).attempts.get? a = some s) :
    (w.history a events).foldl Deed.file ∅ = s.shelves := by
  have index := World.shelves_through opening.filed a events
  rw [roster_of_found found, opening.roster_blank] at index
  exact index.symm

/-- Names, marks, what waits and the index by priority, whatever was called and whatever became of
    the nodes. -/
theorem names_and_indices_agree {start : World} (opening : start.Opening) (events : List Event)
    {a : AttemptId} {s : Attempt} (found : (start.through events).attempts.get? a = some s) :
    let w := start.through events
    let index := (start.history a events).foldl Deed.file ∅
    (∀ b r, w.reservation? a b = some r → w.running? a (w.record r).id = none) ∧
    (∀ id, s.marks.has id → (w.running? a id).isSome) ∧
    ((s.undelivered.map fun r => (w.record r).id).Nodup ∧
      (∀ r ∈ s.undelivered, w.running? a (w.record r).id = some r) ∧
      ∀ id r, w.running? a id = some r → (w.record r).id = id) ∧
    ((∀ p nodes, index.get? p = some nodes → nodes.isEmpty = false) ∧
      (∀ b, w.reservation? a b = index.at? b) ∧
      s.reservedPriorities = index.keys ∧
      (∀ p, p ∈ s.reservedPriorities ↔ ∃ n r, w.reservation? a ⟨p, n⟩ = some r) ∧
      s.reservations.size = (index.values.map (·.size)).sum ∧
      s.reservations.size = {b : Berth | (w.reservation? a b).isSome}.ncard) := by
  have orderly := opening.orderly_through events a
  rw [roster_of_found found] at orderly
  have reserved : ∀ b, (start.through events).reservation? a b = s.reservations.get? b := by
    simp [reservation?, found]
  have running : ∀ id, (start.through events).running? a id = s.live.get? id := by
    simp [running?, found]
  simp only [reserved, running, opening.shelves_through found]
  refine ⟨fun b r at_ => (orderly.reserved b r at_).2, orderly.marked,
    ⟨orderly.distinct, orderly.waits, fun id r at_ => (orderly.running id r at_).2⟩,
    Shelves.full_ofFlat _, fun b => (Shelves.at?_ofFlat _ b).symm, s.reservedPriorities_eq,
    s.mem_reservedPriorities, s.size_shelves.symm, ?_⟩
  exact s.ncard_reservations.symm

/-- A second node takes the name of the first, so two reservations stand on one name. The one that
    is given up takes its priority along. -/
theorem names_and_indices_agree_sample :
    let events : List Event := [
      .call (.request ⟨"a"⟩ [⟨⟨1⟩, anyPlace, ⟨512, 1⟩, 1, true, ""⟩]),
      .call (.allocate ⟨"a"⟩ .offSwitch ⟨"n2"⟩ ⟨1⟩ ⟨⟨"c1"⟩, ⟨"n2"⟩, ⟨512, 1⟩, ⟨1⟩, false, none⟩),
      .call (.reserve ⟨"a"⟩ ⟨1⟩ ⟨"n1"⟩ none ⟨⟨"c2"⟩, ⟨"n1"⟩, ⟨4096, 1⟩, ⟨1⟩, false, none⟩),
      .refit [⟨⟨"n1"⟩, "r", "x", ⟨8192, 8⟩, .zero, none⟩],
      .call (.reserve ⟨"a"⟩ ⟨2⟩ ⟨"n1"⟩ none ⟨⟨"c3"⟩, ⟨"n1"⟩, ⟨4096, 1⟩, ⟨2⟩, false, none⟩),
      .call (.unreserve ⟨"a"⟩ ⟨1⟩ ⟨"n1"⟩)]
    let w := sample.through events
    ∃ s, w.attempts.get? ⟨"a"⟩ = some s ∧
      ((sample.history ⟨"a"⟩ events).foldl Deed.file ∅).keys = [⟨2⟩] ∧
      {b : Berth | (w.reservation? ⟨"a"⟩ b).isSome}.ncard = 1 ∧
      w.running? ⟨"a"⟩ ⟨"c1"⟩ = some ⟨0⟩ ∧ w.running? ⟨"a"⟩ ⟨"c3"⟩ = none := by
  intro events w
  obtain ⟨s, found⟩ := Option.isSome_iff_exists.mp
    (show (w.attempts.get? ⟨"a"⟩).isSome = true by decide)
  obtain ⟨idle, _, _, _, _, listed, _, _, count⟩ := names_and_indices_agree sample_opening events found
  have priorities : (w.attempts.get? ⟨"a"⟩).map (·.reservedPriorities) = some [⟨2⟩] := by decide
  have size : (w.attempts.get? ⟨"a"⟩).map (·.reservations.size) = some 1 := by decide
  rw [found] at priorities size
  have stands : w.reservation? ⟨"a"⟩ ⟨⟨2⟩, ⟨"n1"⟩⟩ = some ⟨2⟩ := by decide
  have named : (w.record ⟨2⟩).id = ⟨"c3"⟩ := by decide
  refine ⟨s, found, ?_, ?_, by decide, named ▸ idle _ _ stands⟩
  · exact listed.symm.trans (Option.some.inj priorities)
  · exact count.symm.trans (Option.some.inj size)

end World
end ClusterLedger
