import ClusterLedger.Proofs.Demand
/- What a placement takes from demand and what it hands back for it. Each place that the container
   serves gives a copy of its request whenever one stands there, also when that request asks for
   nothing any more and when the place was served before. Where neither can be, what is taken and
   what is handed back agree, and putting the copies back undoes the placement. -/
namespace ClusterLedger

def Request.single (r : Request) : Request := { r with count := 1 }

namespace Demand

def Filed (d : Demand) : Prop :=
  ∀ {p place r}, d.request? p place = some r → r.priority = p ∧ r.place = place

def putBack (d : Demand) (r : Request) : Demand :=
  d.put { r with count := .ofNatClamp (d.wanted r.priority r.place + r.count.toNat) }

inductive Errand
  | update (requests : List Request)
  | place (locality : Locality) (node : NodeId) (rack : String) (priority : Priority)

def run (d : Demand) : Errand → Demand
  | .update requests => d.update requests
  | .place locality node rack p => (d.consume p (locality.places node rack)).2

def since (errands : List Errand) : Demand := errands.foldl run {}

variable {d : Demand} {p q : Priority} {place other : String} {r : Request}

theorem serve_copy : (d.serve p place).1 = (d.request? p place).map (·.single) := by
  unfold serve
  split
  · rename_i absent
    simp [request?, absent]
  · rename_i requests found
    split
    · rename_i absent
      simp [request?, found, absent]
    · rename_i r standing
      simp [request?, found, standing, Request.single]

theorem single_of_leftover {r' : Request} (left : leftover place r = some r') :
    r'.single = r.single := by
  rw [leftover_eq] at left
  split at left
  · simp at left
  · rw [← Option.some.inj left]
    rfl

section Filing

theorem filed_put (filed : d.Filed) (r : Request) : (d.put r).Filed := by
  intro p place x found
  rw [request?_put] at found
  split at found
  · rename_i here
    rw [← Option.some.inj found]
    exact here
  · exact filed found

theorem filed_update (filed : d.Filed) (requests : List Request) : (d.update requests).Filed := by
  induction requests generalizing d with
  | nil => exact filed
  | cons r requests ih => exact ih (filed_put filed r)

theorem filed_serve (filed : d.Filed) (p : Priority) (place : String) :
    (d.serve p place).2.Filed := by
  intro q other x found
  rw [request?_serve] at found
  split at found
  · rename_i here
    obtain ⟨r, standing, left⟩ := Option.bind_eq_some_iff.mp found
    have same := single_of_leftover left
    obtain ⟨priority, named⟩ := filed standing
    exact ⟨(congrArg (·.priority) same).trans (priority.trans here.1.symm),
      (congrArg (·.place) same).trans (named.trans here.2.symm)⟩
  · exact filed found

theorem filed_consume (filed : d.Filed) (p : Priority) (places : List String) :
    (d.consume p places).2.Filed := by
  induction places generalizing d with
  | nil => exact filed
  | cons place places ih => exact ih (filed_serve filed p place)

theorem filed_since (errands : List Errand) : (since errands).Filed := by
  have along : ∀ (errands : List Errand) (d : Demand), d.Filed → (errands.foldl run d).Filed := by
    intro errands
    induction errands with
    | nil => exact fun _ filed => filed
    | cons errand errands ih =>
      intro d filed
      refine ih _ ?_
      cases errand with
      | update requests => exact filed_update filed requests
      | place locality node rack p => exact filed_consume filed p _
  intro p place r found
  refine along errands {} ?_ found
  intro p place r found
  simp [request?] at found

end Filing

def copiesFor (place : String) (times : Nat) : Option Request → Nat
  | none => 0
  | some r => if place = anyPlace then times else min times (max 1 r.count.toNat)

theorem copiesFor_succ (place : String) (times : Nat) (r : Request) :
    copiesFor place (times + 1) (some r) = 1 + copiesFor place times (leftover place r) := by
  have fits := r.count.toNat_lt_size
  rw [leftover_eq]
  by_cases any : place = anyPlace
  · simp [copiesFor, any, Nat.add_comm]
  · by_cases last : r.count.toNat ≤ 1
    · simp only [copiesFor, any, last, ne_eq, not_false_eq_true, and_self, ↓reduceIte]
      omega
    · simp only [copiesFor, any, last, false_and, ↓reduceIte, Resource.clamp32]
      omega

theorem count_copies (filed : d.Filed) (p : Priority) (places : List String) (place : String) :
    (d.consume p places).1.countP (·.place = place) =
      copiesFor place (places.count place) (d.request? p place) := by
  induction places generalizing d with
  | nil => cases d.request? p place <;> simp [consume, copiesFor]
  | cons first places ih =>
    have after := ih (filed_serve filed p first)
    rw [request?_serve] at after
    simp only [consume, List.countP_append, after, serve_copy, List.count_cons]
    cases standing : d.request? p first with
    | none =>
      by_cases here : place = first
      · subst here
        simp [standing, copiesFor]
      · simp [here, Ne.symm here]
    | some r =>
      have named : r.single.place = first := (filed standing).2
      by_cases here : place = first
      · subst here
        simp [standing, named, copiesFor_succ]
      · simp [here, named, Ne.symm here]

theorem copy_of_standing (filed : d.Filed) {places : List String} {copy : Request}
    (handed : copy ∈ (d.consume p places).1) :
    ∃ r, d.request? p copy.place = some r ∧ copy = r.single := by
  induction places generalizing d with
  | nil => simp [consume] at handed
  | cons first places ih =>
    simp only [consume, List.mem_append, Option.mem_toList, serve_copy,
      Option.map_eq_some_iff] at handed
    rcases handed with ⟨r, standing, rfl⟩ | later
    · exact ⟨r, (congrArg (d.request? p) (filed standing).2).trans standing, rfl⟩
    · obtain ⟨r, found, rfl⟩ := ih (filed_serve filed p first) later
      rw [request?_serve] at found
      split at found
      · rename_i here
        obtain ⟨r', standing, left⟩ := Option.bind_eq_some_iff.mp found
        exact ⟨r', here.2 ▸ standing, single_of_leftover left⟩
      · exact ⟨r, found, rfl⟩

theorem serve_beside (d : Demand) (place : String) (apart : q ≠ p) :
    (d.serve p place).2.requests.get? q = d.requests.get? q := by
  unfold serve
  split
  · rfl
  · split
    · rfl
    · simp [apart]

theorem consume_beside (d : Demand) (places : List String) (apart : q ≠ p) :
    (d.consume p places).2.requests.get? q = d.requests.get? q := by
  induction places generalizing d with
  | nil => rfl
  | cons place places ih => exact (ih _).trans (serve_beside d place apart)

theorem wanted_putBack (d : Demand) (r : Request) : (d.putBack r).wanted q place =
    if r.priority = q ∧ r.place = place then
      min (UInt32.size - 1) (d.wanted q place + r.count.toNat)
    else d.wanted q place := by
  rw [wanted, putBack, request?_put]
  by_cases here : r.priority = q ∧ r.place = place
  · obtain ⟨rfl, rfl⟩ := here
    simp [Resource.clamp32]
  · rw [if_neg here, if_neg here, wanted]

theorem wanted_putBack_all {copies : List Request}
    (singles : ∀ r ∈ copies, r.priority = p ∧ r.count = 1)
    (fits : d.wanted p place + copies.countP (·.place = place) < UInt32.size) :
    (copies.foldl putBack d).wanted q place =
      if q = p then d.wanted p place + copies.countP (·.place = place) else d.wanted q place := by
  induction copies generalizing d with
  | nil => split <;> simp_all
  | cons r copies ih =>
    obtain ⟨priority, one⟩ := singles r (by simp)
    have returned : ∀ q, (d.putBack r).wanted q place = if q = p ∧ r.place = place then
        min (UInt32.size - 1) (d.wanted q place + 1) else d.wanted q place := by
      intro q
      simp only [wanted_putBack, priority, one, eq_comm (b := q)]
      rfl
    simp only [List.countP_cons, decide_eq_true_eq] at fits ⊢
    rw [List.foldl_cons, ih (fun x member => singles x (by simp [member])), returned, returned]
    · by_cases same : q = p
      · by_cases here : r.place = place
        · simp only [same, here, true_and, ↓reduceIte] at fits ⊢
          omega
        · simp [same, here]
      · simp [same]
    · rw [returned]
      by_cases here : r.place = place
      · simp only [here, true_and, ↓reduceIte] at fits ⊢
        omega
      · simpa [here] using fits

/-- A placement takes from each place exactly what it hands back for it: one container where one is
    wanted, and nothing elsewhere. -/
structure Conserves (d : Demand) (p : Priority) (places : List String) : Prop where
  exact : ∀ place, d.wanted p place = (d.consume p places).2.wanted p place +
    (d.consume p places).1.countP (·.place = place)
  copied : ∀ copy ∈ (d.consume p places).1, ∃ r, d.request? p copy.place = some r ∧ copy = r.single
  taken : ∀ place, (d.consume p places).1.countP (·.place = place) =
    if place ∈ places ∧ 0 < d.wanted p place then 1 else 0
  beside : ∀ q, q ≠ p → (d.consume p places).2.requests.get? q = d.requests.get? q
  restored : ∀ q place,
    ((d.consume p places).1.foldl putBack (d.consume p places).2).wanted q place = d.wanted q place

/-- Every request at one of the places asks for something and is met once: either its place is
    listed once, or its only container is taken and it leaves. -/
def MetOnce (d : Demand) (p : Priority) (places : List String) : Prop :=
  ∀ place ∈ places, ∀ r, d.request? p place = some r →
    0 < r.count.toNat ∧ (places.count place = 1 ∨ r.count.toNat = 1 ∧ place ≠ anyPlace)

theorem copiesFor_eq_taken_iff {times : Nat} (served : 0 < times) (r : Request) :
    copiesFor place times (some r) = (if 0 < r.count.toNat then 1 else 0) ↔
      0 < r.count.toNat ∧ (times = 1 ∨ r.count.toNat = 1 ∧ place ≠ anyPlace) := by
  by_cases any : place = anyPlace
  · simp only [copiesFor, any, ↓reduceIte]
    split
    · simp_all
    · simp_all
      omega
  · simp only [copiesFor, any, ↓reduceIte, ne_eq, not_false_eq_true, and_true]
    split <;> omega

theorem taken_iff_metOnce (filed : d.Filed) (p : Priority) (places : List String) :
    (∀ place, (d.consume p places).1.countP (·.place = place) =
      if place ∈ places ∧ 0 < d.wanted p place then 1 else 0) ↔ d.MetOnce p places := by
  simp only [count_copies filed]
  constructor
  · intro taken place listed r standing
    have once := taken place
    rw [standing, wanted, standing] at once
    refine (copiesFor_eq_taken_iff (List.count_pos_iff.mpr listed) r).mp (once.trans ?_)
    simp [listed]
  · intro met place
    by_cases listed : place ∈ places
    · cases standing : d.request? p place with
      | none => simp [copiesFor, wanted, standing]
      | some r =>
        have once := met place listed r standing
        refine ((copiesFor_eq_taken_iff (List.count_pos_iff.mpr listed) r).mpr once).trans ?_
        simp [listed, wanted, standing]
    · have unserved : places.count place = 0 := List.count_eq_zero.mpr listed
      cases d.request? p place <;> simp [copiesFor, unserved, listed]

theorem exact_of_metOnce (filed : d.Filed) {places : List String} (met : d.MetOnce p places)
    (place : String) : d.wanted p place = (d.consume p places).2.wanted p place +
      (d.consume p places).1.countP (·.place = place) := by
  rw [(taken_iff_metOnce filed p places).mpr met, wanted_consume, if_pos rfl]
  by_cases listed : place ∈ places
  · have served := List.count_pos_iff.mpr listed
    cases standing : d.request? p place with
    | none => simp [wanted, standing]
    | some r =>
      have once := met place listed r standing
      simp only [listed, wanted, standing, Option.map_some, Option.getD_some, true_and]
      split <;> omega
  · simp [listed, List.count_eq_zero.mpr listed]

theorem conserves_iff_metOnce (filed : d.Filed) (p : Priority) (places : List String) :
    d.Conserves p places ↔ d.MetOnce p places := by
  refine ⟨fun conserves => (taken_iff_metOnce filed p places).mp conserves.taken, fun met => ?_⟩
  have exact := exact_of_metOnce filed met
  refine ⟨exact, fun _ => copy_of_standing filed, (taken_iff_metOnce filed p places).mpr met,
    fun _ => consume_beside d places, fun q place => ?_⟩
  have singles : ∀ r ∈ (d.consume p places).1, r.priority = p ∧ r.count = 1 := by
    intro copy handed
    obtain ⟨r, standing, rfl⟩ := copy_of_standing filed handed
    exact ⟨(filed standing).1, rfl⟩
  have fits : d.wanted p place < UInt32.size := by
    unfold wanted
    cases d.request? p place with
    | none => decide
    | some r => exact r.count.toNat_lt_size
  rw [wanted_putBack_all singles (exact place ▸ fits)]
  split
  · rename_i same
    rw [same]
    exact (exact place).symm
  · rename_i apart
    rw [wanted_consume, if_neg apart]

/-- Whatever befell demand before, a placement conserves it if and only if it meets each request
    once and meets none that asks for nothing. -/
theorem placement_conserves_iff (past : List Errand) (p : Priority) (locality : Locality)
    (node : NodeId) (rack : String) :
    let places := locality.places node rack
    (since past).Conserves p places ↔ (since past).MetOnce p places :=
  conserves_iff_metOnce (filed_since past) p (locality.places node rack)

/-- A request that was withdrawn is handed back as one container, and a rack that goes by the name
    of its node gives two containers at once. -/
theorem withdrawn_and_twofold_served :
    let withdrawn := since [.update [⟨⟨1⟩, "/r", ⟨1024, 1⟩, 0, true, ""⟩,
      ⟨⟨1⟩, anyPlace, ⟨1024, 1⟩, 2, true, ""⟩]]
    let twofold := since [.update [⟨⟨1⟩, "n1", ⟨1024, 1⟩, 5, true, ""⟩,
      ⟨⟨1⟩, anyPlace, ⟨1024, 1⟩, 5, true, ""⟩]]
    withdrawn.wanted ⟨1⟩ "/r" = 0 ∧
      (withdrawn.consume ⟨1⟩ (Locality.rackLocal.places ⟨"n1"⟩ "/r")).1.map (·.place) =
        ["/r", anyPlace] ∧
      ¬ withdrawn.Conserves ⟨1⟩ (Locality.rackLocal.places ⟨"n1"⟩ "/r") ∧
    (twofold.consume ⟨1⟩ (Locality.nodeLocal.places ⟨"n1"⟩ "n1")).2.wanted ⟨1⟩ "n1" = 3 ∧
      ¬ twofold.Conserves ⟨1⟩ (Locality.nodeLocal.places ⟨"n1"⟩ "n1") := by
  intro withdrawn twofold
  have handed : (withdrawn.consume ⟨1⟩ (Locality.rackLocal.places ⟨"n1"⟩ "/r")).1.map (·.place) =
      ["/r", anyPlace] := by decide
  have left : (twofold.consume ⟨1⟩ (Locality.nodeLocal.places ⟨"n1"⟩ "n1")).2.wanted ⟨1⟩ "n1" =
      3 := by decide
  refine ⟨by decide, handed, fun conserves => ?_, left, fun conserves => ?_⟩
  · exact absurd (conserves.taken "/r") (by decide)
  · exact absurd (conserves.taken "n1") (by decide)

end Demand
end ClusterLedger
