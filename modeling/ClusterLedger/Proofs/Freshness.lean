import ClusterLedger.Proofs.Reclaim
/- Names in the states that simulations reach. Every record there is has a container whose name was
   drawn for an earlier number, so the name that is drawn next is nobody's. -/
namespace ClusterLedger

namespace World
variable {w w' : World} {a : AttemptId} {x : RecordId}

theorem Outcome.knows {c : Call} (outcome : Outcome w c w') (quiet : c.drawn? = none) :
    w'.Knows x ↔ w.Knows x := by
  cases outcome with
  | begins | reserves | displaces | resizes => simp [Call.drawn?] at quiet
  | ends step => exact step.knows x
  | relabels step => exact step.knows x
  | lapses step => exact step.knows x
  | moves step => exact step.knows x
  | delivers step => exact step.knows x
  | notes _ _ step => exact step.knows x
  | tends _ step => exact step.knows x

theorem allocate_named (coherent : w.Coherent) {locality : Locality} {n : NodeId} {p : Priority}
    {container : Container} (known : ((w.allocate a locality n p container).2).Knows x) :
    w.Knows x ∨ ((w.allocate a locality n p container).2).container x = container := by
  rcases allocate_cases (w := w) a locality n p container with refused | ⟨s, node, found, offered, may⟩
  · rw [refused] at known
    exact .inl known
  · obtain ⟨s', r, record, begins, _, copy, _⟩ := allocate_made coherent locality found offered may
    rcases (begins.knows x).mp known with old | rfl
    · exact .inl old
    · exact .inr (by rw [World.container, record_own begins.records, copy])

theorem reserve_named (sound : w.Sound) {n : NodeId} {p : Priority} {existing : Option RecordId}
    {container : Container} {r : RecordId}
    (answer : w.reserve a p n existing container = .ok (r, w')) (known : w'.Knows x) :
    w.Knows x ∨ w'.container x = container := by
  have named := (reserve_enters sound.filed.nodes sound.filed.attempts answer).2
  -- A record that the index had is not new.
  have made : ¬ w.Knows r → x = r → w'.container x = container := by
    rintro fresh rfl
    rcases named with old | ⟨_, copy, _⟩
    · exact absurd (sound.stands ((reservation?_roster w a _).trans old)).1 fresh
    · exact copy
  cases reserve_seating sound.toCoherent sound.filed answer with
  | enlists _ step => exact ((step.knows x).mp known).imp_right (made step.fresh)
  | replaces _ _ first second =>
    have fresh : ¬ w.Knows r := fun old => second.fresh ((first.knows r).mpr old)
    exact ((second.knows x).mp known).imp (first.knows x).mp (made fresh)
  | remakes _ step => exact .inl ((step.knows x).mp known)
  | remakesBeside _ _ first second => exact .inl ((first.knows x).mp ((second.knows x).mp known))
  | doubles _ step => exact .inl ((step.knows x).mp known)

theorem known_drawn (sound : w.Sound) (c : Call) (known : (w.perform c).Knows x) :
    w.Knows x ∨ c.drawn? = some ((w.perform c).container x).id := by
  have elsewhere : c.drawn? = none → w.Knows x := fun quiet =>
    ((outcome sound c).knows quiet).mp known
  cases c with
  | allocate a locality n p container =>
    refine (allocate_named sound.toCoherent known).imp_right fun copy => ?_
    simp only [Call.drawn?, perform, copy]
  | reserve a p n existing container =>
    cases answer : w.reserve a p n existing container with
    | error e => exact .inl (perform_refused answer ▸ known)
    | ok result =>
      rw [perform_reserved answer] at known ⊢
      exact (reserve_named sound answer known).imp_right fun copy => by simp [Call.drawn?, copy]
  | _ => exact .inl (elsewhere rfl)

theorem Sound.follows_after (sound : w.Sound) (calls : List Call) : Follows w (w.after calls) := by
  induction calls generalizing w with
  | nil => exact follows_refl w
  | cons c calls ih => exact (passage_perform sound.filed c).follows.trans (ih (sound.perform c))

theorem known_after (sound : w.Sound) (calls : List Call) (known : (w.after calls).Knows x) :
    w.Knows x ∨ ((w.after calls).container x).id ∈ calls.filterMap Call.drawn? := by
  induction calls generalizing w with
  | nil => exact .inl known
  | cons c calls ih =>
    have later := sound.perform c
    rcases ih later known with middle | drawn
    · refine (known_drawn sound c middle).imp_right fun drawn => ?_
      rw [after_cons, ((later.follows_after calls).records x middle).2]
      exact List.mem_filterMap.mpr ⟨c, List.mem_cons_self, drawn⟩
    · obtain ⟨c', member, drawn⟩ := List.mem_filterMap.mp drawn
      exact .inr (List.mem_filterMap.mpr ⟨c', List.mem_cons_of_mem _ member, drawn⟩)

theorem records_foldl {α : Type} {f : World → α → World} (kept : ∀ w x, (f w x).records = w.records)
    (w : World) (l : List α) : (l.foldl f w).records = w.records := by
  induction l generalizing w with
  | nil => rfl
  | cons x l ih => exact (ih (f w x)).trans (kept w x)

end World

namespace Simulation
variable {sim : Simulation}

theorem namesFrom_below {n : Nat} {l : List AttemptId} {id : ContainerId}
    (member : id ∈ namesFrom n l) : ∃ a m, m < n + l.length ∧ id = nameAt a m := by
  induction l generalizing n with
  | nil => simp [namesFrom] at member
  | cons a l ih =>
    rcases List.mem_cons.mp member with rfl | later
    · exact ⟨a, n, by simp, rfl⟩
    · obtain ⟨b, m, below, rfl⟩ := ih later
      refine ⟨b, m, ?_, rfl⟩
      rw [List.length_cons]
      omega

/-- What a simulation reaches: books and lists are in order, and every name that is taken was drawn
    for a number below the next one. -/
structure Ready (sim : Simulation) : Prop extends sim.Steady where
  numbered : ∀ r, sim.world.Knows r →
    ∃ a m, m < sim.nextContainer ∧ (sim.world.container r).id = nameAt a m

theorem Ready.plays {calls : List Call} {told : Account} {sim' : Simulation} (ready : sim.Ready)
    (plays : Plays sim calls told sim') : sim'.Ready where
  toSteady := ready.toSteady.plays plays
  numbered := by
    intro r known
    obtain ⟨names, drawn, next⟩ := plays.drawn
    rw [plays.world] at known ⊢
    rcases World.known_after ready.sound calls known with old | new
    · obtain ⟨a, m, below, named⟩ := ready.numbered r old
      refine ⟨a, m, by omega, ?_⟩
      rw [((ready.sound.follows_after calls).records r old).2, named]
    · rw [drawn] at new
      obtain ⟨a, m, below, named⟩ := namesFrom_below new
      exact ⟨a, m, by omega, named⟩

theorem Ready.next_free (ready : sim.Ready) (a x : AttemptId) :
    sim.world.running? x (nameAt a sim.nextContainer) = none ∧
      ∀ b r, sim.world.reservation? x b = some r →
        (sim.world.record r).id ≠ nameAt a sim.nextContainer := by
  have free : ∀ r, sim.world.Knows r → (sim.world.record r).id ≠ nameAt a sim.nextContainer := by
    intro r known same
    obtain ⟨b, m, below, named⟩ := ready.numbered r known
    have number := nameAt_number (named.symm.trans same)
    omega
  refine ⟨Option.eq_none_iff_forall_ne_some.mpr fun r runs => ?_, fun b r stands => ?_⟩
  · obtain ⟨known, live⟩ := ready.sound.runs runs
    exact free r known live.named
  · exact free r (ready.sound.stands stands).1

theorem build_ready {c : Cluster} (valid : c.validate = .ok ()) :
    ∃ sim, build c = .ok sim ∧ sim.Ready ∧ sim.settings = c.simulation := by
  obtain ⟨sim, built, _, steady, _⟩ := build_steady valid
  obtain rfl := Except.ok.inj ((build_eq valid).symm.trans built)
  refine ⟨_, built, ⟨steady, fun r known => ?_⟩, rfl⟩
  have blank : ∀ attempts queues nodes, (List.foldl World.addAttempt (List.foldl World.addQueue
      (List.foldl World.addNode {} nodes) queues) attempts).records = #[] := by
    intro attempts queues nodes
    rw [World.records_foldl (f := World.addAttempt) fun _ _ => rfl,
      World.records_foldl (f := World.addQueue) fun _ _ => rfl,
      World.records_foldl (f := World.addNode) fun _ _ => rfl]
  simp [World.Knows, ground, blank] at known

end Simulation
end ClusterLedger
