import ClusterLedger.Proofs.Amount
import ClusterLedger.Proofs.Memo
import Mathlib.Data.List.Induction
/- What attempts ask for. An allocation takes one container off the total of its priority if the
   names on the node are plain, and a request replaces the total that it names; nothing else counts. -/
namespace ClusterLedger

namespace Demand

def wanted (d : Demand) (p : Priority) (place : String) : Nat :=
  ((d.request? p place).map (·.count.toNat)).getD 0

def leftover (place : String) (r : Request) : Option Request := (served ∅ place r).get? place

theorem leftover_eq (place : String) (r : Request) : leftover place r =
    if r.count.toNat ≤ 1 ∧ place ≠ anyPlace then none
    else some { r with count := .ofNatClamp (r.count.toNat - 1) } := by
  have fits := r.count.toNat_lt_size
  have last : UInt32.ofNatClamp (r.count.toNat - 1) = 0 ↔ r.count.toNat ≤ 1 := by
    rw [← UInt32.toNat_inj, Resource.clamp32, UInt32.toNat_zero]
    omega
  simp only [leftover, served, last]
  split <;> simp

theorem wanted_leftover (place : String) (r : Request) :
    ((leftover place r).map (·.count.toNat)).getD 0 = r.count.toNat - 1 := by
  have fits := r.count.toNat_lt_size
  rw [leftover_eq]
  split
  · simp only [Option.map_none, Option.getD_none]
    omega
  · simp only [Option.map_some, Option.getD_some, Resource.clamp32]
    omega

variable (d : Demand) (p q : Priority) (place other : String)

theorem outstanding_wanted : (d.outstanding p).toNat = d.wanted p anyPlace := by
  unfold outstanding wanted
  cases d.request? p anyPlace <;> rfl

theorem request?_put (r : Request) : (d.put r).request? p place =
    if r.priority = p ∧ r.place = place then some r else d.request? p place := by
  simp only [request?, put, Table.lookup_insert]
  by_cases priority : p = r.priority
  · subst priority
    simp only [↓reduceIte, Option.bind_some, Table.lookup_insert, true_and, eq_comm]
    cases d.requests.get? r.priority <;> simp
  · simp [priority, Ne.symm priority]

def asked? (requests : List Request) (p : Priority) : Option UInt32 :=
  ((requests.filter fun r => r.priority = p ∧ r.place = anyPlace).getLast?).map (·.count)

theorem outstanding_put (r : Request) : (d.put r).outstanding p =
    if r.priority = p ∧ r.place = anyPlace then r.count else d.outstanding p := by
  simp only [outstanding, request?_put]
  split <;> rfl

theorem outstanding_update (requests : List Request) :
    (d.update requests).outstanding p = (asked? requests p).getD (d.outstanding p) := by
  induction requests using List.reverseRecOn with
  | nil => rfl
  | append_singleton requests r ih =>
    rw [update] at ih ⊢
    rw [List.foldl_append, List.foldl_cons, List.foldl_nil, outstanding_put, ih, asked?, asked?,
      List.filter_append]
    by_cases names : r.priority = p ∧ r.place = anyPlace <;> simp [names]

theorem request?_serve : (d.serve p place).2.request? q other =
    if q = p ∧ other = place then (d.request? p place).bind (leftover place)
    else d.request? q other := by
  have idle : (d.request? p place) = none → (d.serve p place).2 = d := by
    intro absent
    unfold serve
    split
    · rfl
    · rename_i requests at_
      simp [request?, at_] at absent
      simp [absent]
  cases named : d.request? p place with
  | none =>
    rw [idle named]
    split
    · rename_i same
      rw [same.1, same.2, named]
      rfl
    · rfl
  | some r =>
    obtain ⟨requests, at_, found⟩ := Option.bind_eq_some_iff.mp named
    simp only [serve, at_, found, request?, Table.lookup_insert]
    by_cases priority : q = p
    · subst priority
      simp only [↓reduceIte, Option.bind_some, at_, true_and, leftover, served]
      split <;> simp [Table.lookup_erase, Table.lookup_insert]
    · simp [priority]

theorem wanted_serve : (d.serve p place).2.wanted q other =
    if q = p ∧ other = place then d.wanted p place - 1 else d.wanted q other := by
  simp only [wanted, request?_serve]
  split
  · cases d.request? p place with
    | none => rfl
    | some r => exact wanted_leftover place r
  · rfl

/-- A placement asks for one container less at a place as often as it serves the place. -/
theorem wanted_consume (places : List String) : (d.consume p places).2.wanted q place =
    if q = p then d.wanted p place - places.count place else d.wanted q place := by
  induction places generalizing d with
  | nil => split <;> simp_all [consume]
  | cons first places ih =>
    simp only [consume, ih, wanted_serve, List.count_cons]
    by_cases same : q = p
    · by_cases here : place = first
      · subst here
        simp only [same, and_self, ↓reduceIte, beq_self_eq_true]
        omega
      · simp [same, here, Ne.symm here]
    · simp [same]

theorem outstanding_consume (places : List String) :
    ((d.consume p places).2.outstanding q).toNat =
      if q = p then (d.outstanding p).toNat - places.count anyPlace else (d.outstanding q).toNat := by
  simp only [outstanding_wanted, wanted_consume]

end Demand

theorem Locality.count_places (locality : Locality) {node : NodeId} {rack : String}
    (named : node.text ≠ anyPlace) (racked : rack ≠ anyPlace) :
    (locality.places node rack).count anyPlace = 1 := by
  cases locality <;> simp [Locality.places, named, racked]

structure Terms where
  demand : Demand
  stopped : Bool

def Attempt.terms (s : Attempt) : Terms := ⟨s.demand, s.stopped⟩

def Terms.consume (t : Terms) (p : Priority) (places : List String) : Terms :=
  { t with demand := (t.demand.consume p places).2 }

def Memo.terms (m : Memo) : Terms := ⟨m.demand, m.stopped⟩

theorem Memo.serve_terms (m : Memo) (p : Priority) (places : List String) (isMaster : Bool) :
    (m.serve p places isMaster).terms = m.terms.consume p places := by
  unfold serve
  split <;> rfl

theorem Memo.process_terms (m : Memo) (node : Node) : (m.process node).terms = m.terms := by
  unfold process
  split <;> rfl

def Call.KeepsTerms : Call → Prop
  | .allocate .. | .request .. | .stop .. => False
  | _ => True

namespace World

def terms? (w : World) (a : AttemptId) : Option Terms := (w.attempts.get? a).map (·.terms)

variable {w : World} {a : AttemptId}

theorem terms_memo : w.terms? a = (w.memo? a).map (·.terms) := by
  rw [memo?, Option.map_map]
  rfl

theorem allocate_isSome_iff {s : Attempt} {node : Node} {n : NodeId} {p : Priority} {c : Container}
    (locality : Locality) (found : w.attempts.get? a = some s)
    (offered : w.nodes.get? n = some node) :
    (w.allocate a locality n p c).1.isSome ↔ w.mayAllocate s p c.id = true := by
  by_cases may : w.mayAllocate s p c.id
  · obtain ⟨r, w', answer, _⟩ := allocate_begin locality found offered may
    simp [answer, may]
  · simp [allocate, found, offered, may]

theorem mayAllocate_iff {s : Attempt} {p : Priority} {id : ContainerId}
    (found : w.attempts.get? a = some s) : w.mayAllocate s p id = true ↔
      s.stopped = false ∧ 0 < (s.demand.outstanding p).toNat ∧ w.running? a id = none ∧
        ∀ b r, w.reservation? a b = some r → (w.record r).id ≠ id := by
  have positive : s.demand.outstanding p ≠ 0 ↔ 0 < (s.demand.outstanding p).toNat := by
    rw [Nat.pos_iff_ne_zero, ne_eq, ne_eq, ← UInt32.toNat_inj]
    rfl
  simp only [mayAllocate, Attempt.isLive, Table.contains, isReserved, Bool.and_eq_true,
    Bool.not_eq_true', bne_iff_ne, positive, Option.isSome_eq_false_iff, Option.isNone_iff_eq_none,
    List.any_eq_false, beq_iff_eq, Table.mem_values, running?, reservation?, found,
    Option.bind_some, and_assoc, forall_exists_index]
  exact and_congr_right' (and_congr_right' (and_congr_right' forall_comm))

def treat (w : World) (a : AttemptId) (t : Terms) : Call → Terms
  | .allocate x locality n p c =>
    match w.nodes.get? n with
    | some node =>
      if x = a ∧ (w.allocate x locality n p c).1.isSome then
        t.consume p (locality.places node.id node.rack)
      else t
    | none => t
  | .request x requests => if x = a then { t with demand := t.demand.update requests } else t
  | .stop x => if x = a then { t with stopped := true } else t
  | _ => t

theorem note_terms (m : Memo) (c : Call) : (w.note a m c).terms = w.treat a m.terms c := by
  have either : ∀ {P : Prop} [Decidable P] (m' : Memo),
      (if P then m' else m).terms = if P then m'.terms else m.terms := fun _ => apply_ite _ _ _ _
  cases c with
  | allocate x locality n p c =>
    cases offered : w.nodes.get? n <;> simp [note, treat, offered, either, Memo.serve_terms]
  | processNode x n =>
    cases offered : w.nodes.get? n <;> simp [note, treat, offered, either, Memo.process_terms]
  | complete | reserve | unreserve | snapshot | skipNode => exact (either _).trans (ite_self _)
  | request | stop => exact either _
  | _ => rfl

theorem terms_treat (w : World) (a : AttemptId) (c : Call) :
    (w.perform c).terms? a = (w.terms? a).map (w.treat a · c) := by
  rw [terms_memo, memo_note, terms_memo, Option.map_map, Option.map_map]
  exact congrArg (Option.map · _) (funext fun m => note_terms m c)

theorem terms_perform (c : Call) (keeps : c.KeepsTerms) : (w.perform c).terms? = w.terms? := by
  funext a
  have same : ∀ t, w.treat a t c = t := by
    intro t
    cases c with
    | allocate | request | stop => exact keeps.elim
    | _ => rfl
  simp [terms_treat, same]

theorem terms_allocate {s : Attempt} {node : Node} {n : NodeId} {priority : Priority}
    {c : Container} (locality : Locality) (found : w.attempts.get? a = some s)
    (offered : w.nodes.get? n = some node) (may : w.mayAllocate s priority c.id = true)
    (b : AttemptId) : (w.allocate a locality n priority c).2.terms? b =
      if b = a then some (s.terms.consume priority (locality.places node.id node.rack))
      else w.terms? b := by
  have granted := (allocate_isSome_iff locality found offered).mpr may
  refine (terms_treat w b (.allocate a locality n priority c)).trans ?_
  simp only [treat, offered, granted, and_true]
  by_cases own : b = a
  · simp [own, terms?, found]
  · simp [own, Ne.symm own]

end World

end ClusterLedger
