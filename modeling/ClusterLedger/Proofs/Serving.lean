import ClusterLedger.Proofs.Demand
/- Demand is never served twice over. Since the last request that gave a total for a priority, the
   allocations that were granted there and what is still outstanding make up that total. This holds
   where no node and no rack has the name that stands for any place: such a node counts twice. -/
namespace ClusterLedger

def Event.asks? (a : AttemptId) (p : Priority) : Event → Option UInt32
  | .call (.request x requests) => if x = a then Demand.asked? requests p else none
  | _ => none

def Event.target? : Event → Option NodeId
  | .call (.allocate _ _ n _ _) => some n
  | _ => none

namespace World

def outstanding (w : World) (a : AttemptId) (p : Priority) : Nat :=
  ((w.attempts.get? a).map fun s => (s.demand.outstanding p).toNat).getD 0

def granted (w : World) (a : AttemptId) (p : Priority) : Event → Nat
  | .call (.allocate x locality n q c) =>
    if x = a ∧ q = p ∧ (w.allocate x locality n q c).1.isSome then 1 else 0
  | _ => 0

def grants (w : World) (a : AttemptId) (p : Priority) : List Event → Nat
  | [] => 0
  | e :: events => w.granted a p e + (w.undergo e).grants a p events

/-- What is placed goes to a node that is not named as any place is, on a rack that is not either. -/
def PlacesPlainly (w : World) (e : Event) : Prop :=
  ∀ node ∈ e.target?.bind w.nodes.get?, node.id.text ≠ anyPlace ∧ node.rack ≠ anyPlace

instance (w : World) (e : Event) : Decidable (w.PlacesPlainly e) :=
  inferInstanceAs
    (Decidable (∀ node ∈ e.target?.bind w.nodes.get?, node.id.text ≠ anyPlace ∧ node.rack ≠ anyPlace))

instance decidableThroughout (allowed : World → Event → Prop) [∀ w e, Decidable (allowed w e)] :
    ∀ w events, Decidable (Throughout allowed w events)
  | _, [] => isTrue trivial
  | w, e :: events =>
    have := decidableThroughout allowed (w.undergo e) events
    inferInstanceAs (Decidable (allowed w e ∧ Throughout allowed (w.undergo e) events))

variable {w start : World} {a : AttemptId} {p : Priority}

theorem outstanding_terms (w : World) (a : AttemptId) (p : Priority) :
    w.outstanding a p = ((w.terms? a).map fun t => (t.demand.outstanding p).toNat).getD 0 := by
  simp only [outstanding, terms?, Option.map_map]
  rfl

theorem outstanding_perform (w : World) (a : AttemptId) (p : Priority) (c : Call) :
    (w.perform c).outstanding a p =
      ((w.terms? a).map fun t => ((w.treat a t c).demand.outstanding p).toNat).getD 0 := by
  rw [outstanding_terms, terms_treat, Option.map_map]
  rfl

theorem outstanding_beside {e : Event} (refused : w.granted a p e = 0)
    (silent : e.asks? a p = none) : (w.undergo e).outstanding a p = w.outstanding a p := by
  cases e with
  | refit nodes => rfl
  | call c =>
    rw [undergo, outstanding_perform, outstanding_terms]
    cases c with
    | allocate x locality n q c =>
      simp only [treat]
      split
      · rename_i node offered
        split
        · rename_i made
          have here : p ≠ q := by
            rintro rfl
            rw [granted, if_pos ⟨made.1, rfl, made.2⟩] at refused
            simp at refused
          simp [Terms.consume, Demand.outstanding_consume, here]
        · rfl
      · rfl
    | request x requests =>
      by_cases own : x = a
      · have nothing : Demand.asked? requests p = none := by
          simpa [Event.asks?, own] using silent
        simp [treat, own, Demand.outstanding_update, nothing]
      · simp [treat, own]
    | stop x => by_cases own : x = a <;> simp [treat, own]
    | _ => rfl

theorem outstanding_granted {locality : Locality} {n : NodeId} {c : Container}
    (plain : w.PlacesPlainly (.call (.allocate a locality n p c)))
    (made : (w.allocate a locality n p c).1.isSome) :
    1 + (w.perform (.allocate a locality n p c)).outstanding a p = w.outstanding a p := by
  rcases allocate_cases (w := w) a locality n p c with refused | ⟨s, node, found, offered, may⟩
  · simp [refused] at made
  · have wanted := ((mayAllocate_iff found).mp may).2.1
    have once := locality.count_places (plain node offered).1 (plain node offered).2
    rw [outstanding_perform, outstanding_terms]
    simp only [treat, offered, made, and_self, ↓reduceIte, terms?, found, Option.map_some,
      Option.getD_some, Terms.consume, Attempt.terms, Demand.outstanding_consume, once]
    omega

theorem outstanding_step {e : Event} (plain : w.PlacesPlainly e) (silent : e.asks? a p = none) :
    w.granted a p e + (w.undergo e).outstanding a p = w.outstanding a p := by
  by_cases refused : w.granted a p e = 0
  · rw [refused, Nat.zero_add]
    exact outstanding_beside refused silent
  · unfold granted at refused ⊢
    split at refused
    · split at refused
      · rename_i made
        obtain ⟨rfl, rfl, made⟩ := made
        simp only [made, and_self, ↓reduceIte]
        exact outstanding_granted plain made
      · simp at refused
    · simp at refused

theorem outstanding_asked {e : Event} {k : UInt32} (known : (w.attempts.get? a).isSome)
    (asks : e.asks? a p = some k) : (w.undergo e).outstanding a p = k.toNat := by
  unfold Event.asks? at asks
  split at asks
  · split at asks
    · rename_i x requests own
      obtain ⟨s, found⟩ := Option.isSome_iff_exists.mp known
      rw [undergo, outstanding_perform]
      simp [treat, own, terms?, found, Demand.outstanding_update, asks]
    · simp at asks
  · simp at asks

theorem known_undergo (e : Event) :
    ((w.undergo e).attempts.get? a).isSome = (w.attempts.get? a).isSome := by
  cases e with
  | refit nodes => rfl
  | call c => simpa [terms?, undergo] using congrArg Option.isSome (terms_treat w a c)

theorem known_through (events : List Event) :
    ((w.through events).attempts.get? a).isSome = (w.attempts.get? a).isSome := by
  induction events generalizing w with
  | nil => rfl
  | cons e events ih => exact (ih (w := w.undergo e)).trans (known_undergo e)

theorem grants_add_outstanding {events : List Event} (plain : w.Throughout PlacesPlainly events)
    (silent : ∀ e ∈ events, e.asks? a p = none) :
    w.grants a p events + (w.through events).outstanding a p = w.outstanding a p := by
  induction events generalizing w with
  | nil => exact Nat.zero_add _
  | cons e events ih =>
    obtain ⟨first, rest⟩ := plain
    have step := outstanding_step first (silent e List.mem_cons_self)
    have later := ih rest fun e member => silent e (List.mem_cons_of_mem _ member)
    rw [grants, ← step, ← later, Nat.add_assoc]
    rfl

theorem through_append (w : World) (before since : List Event) :
    w.through (before ++ since) = (w.through before).through since :=
  List.foldl_append

theorem Throughout.rest {allowed : World → Event → Prop} {before since : List Event}
    (along : w.Throughout allowed (before ++ since)) :
    (w.through before).Throughout allowed since := by
  induction before generalizing w with
  | nil => exact along
  | cons e before ih => exact ih along.2

/-- Along any run whose containers are placed plainly: where the last request that named any place
    at a priority gave a total, the allocations granted there since and what is outstanding make up
    that total, and without such a request they make up what was outstanding at the start. Nothing
    else changes what is outstanding, and an allocation is granted if and only if the attempt is not
    stopped, something is outstanding, and the name is neither live nor reserved. -/
theorem demand_served_once {start : World} {a : AttemptId} (known : (start.attempts.get? a).isSome)
    {events : List Event} (plain : start.Throughout PlacesPlainly events) (p : Priority) :
    let w := start.through events
    (∀ before requests since total, events = before ++ .call (.request a requests) :: since →
      Demand.asked? requests p = some total → (∀ e ∈ since, e.asks? a p = none) →
        (start.through (before ++ [.call (.request a requests)])).grants a p since +
          w.outstanding a p = total.toNat) ∧
    ((∀ e ∈ events, e.asks? a p = none) →
      start.grants a p events + w.outstanding a p = start.outstanding a p) ∧
    (∀ e, w.granted a p e = 0 → e.asks? a p = none →
      (w.undergo e).outstanding a p = w.outstanding a p) ∧
    ∀ s node n locality c, w.attempts.get? a = some s → w.nodes.get? n = some node →
      ((w.allocate a locality n p c).1.isSome ↔ s.stopped = false ∧ 0 < w.outstanding a p ∧
        w.running? a c.id = none ∧ ∀ b r, w.reservation? a b = some r → (w.record r).id ≠ c.id) := by
  intro w
  refine ⟨?_, grants_add_outstanding plain, fun e => outstanding_beside, ?_⟩
  · rintro before requests since total rfl asked silent
    have asks : Event.asks? a p (.call (.request a requests)) = some total := by
      simpa [Event.asks?] using asked
    have there : ((start.through before).attempts.get? a).isSome := by
      rw [known_through, known]
    have renewed : (start.through (before ++ [.call (.request a requests)])).outstanding a p =
        total.toNat := by
      rw [through_append]
      exact outstanding_asked there asks
    rw [List.append_cons] at plain
    have spent := grants_add_outstanding plain.rest silent
    rwa [renewed, ← through_append, ← List.append_cons] at spent
  · intro s node n locality c found offered
    have wanted : w.outstanding a p = (s.demand.outstanding p).toNat := by
      simp [outstanding, found]
    rw [allocate_isSome_iff locality found offered, mayAllocate_iff found, wanted]

/-- The total drops from three to two while one container is placed at each closeness; the third
    allocation comes too late, and so does one at another priority. -/
theorem demand_served_once_sample :
    let master : Container := ⟨⟨"c1"⟩, ⟨"n1"⟩, ⟨512, 1⟩, ⟨1⟩, true, none⟩
    let worker : Container := ⟨⟨"c2"⟩, ⟨"n2"⟩, ⟨512, 1⟩, ⟨1⟩, false, none⟩
    let asking : List Request := [⟨⟨1⟩, anyPlace, ⟨512, 1⟩, 3, true, ""⟩,
      ⟨⟨1⟩, "n1", ⟨512, 1⟩, 1, true, ""⟩, ⟨⟨1⟩, anyPlace, ⟨512, 1⟩, 2, true, ""⟩]
    let placing : List Event := [
      .call (.allocate ⟨"a"⟩ .nodeLocal ⟨"n1"⟩ ⟨1⟩ master),
      .call (.request ⟨"a"⟩ [⟨⟨1⟩, "r", ⟨512, 1⟩, 7, true, ""⟩, ⟨⟨2⟩, "n1", ⟨512, 1⟩, 9, true, ""⟩]),
      .call (.allocate ⟨"a"⟩ .rackLocal ⟨"n2"⟩ ⟨1⟩ worker),
      .call (.allocate ⟨"a"⟩ .rackLocal ⟨"n2"⟩ ⟨1⟩ { worker with id := ⟨"c3"⟩ }),
      .call (.allocate ⟨"a"⟩ .nodeLocal ⟨"n1"⟩ ⟨2⟩ { worker with id := ⟨"c3"⟩ })]
    let asked := sample.through [.call (.request ⟨"a"⟩ asking)]
    let w := sample.through (.call (.request ⟨"a"⟩ asking) :: placing)
    asked.grants ⟨"a"⟩ ⟨1⟩ placing = 2 ∧
      asked.grants ⟨"a"⟩ ⟨1⟩ placing + w.outstanding ⟨"a"⟩ ⟨1⟩ = 2 := by
  intro master worker asking placing asked w
  have plain : sample.Throughout PlacesPlainly (.call (.request ⟨"a"⟩ asking) :: placing) := by
    decide +kernel
  obtain ⟨served, _⟩ := demand_served_once (a := ⟨"a"⟩) (by decide +kernel) plain ⟨1⟩
  have total : Demand.asked? asking ⟨1⟩ = some 2 := by decide +kernel
  have silent : ∀ e ∈ placing, Event.asks? ⟨"a"⟩ ⟨1⟩ e = none := by decide +kernel
  have law := served [] asking placing 2 rfl total silent
  exact ⟨by decide +kernel, law⟩

end World
end ClusterLedger
