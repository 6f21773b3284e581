import ClusterLedger.Proofs.Outcome
/- Whatever is called, slots of nodes and indices of attempts keep telling the same reservations. -/
namespace ClusterLedger.World

theorem Outcome.coherent {w w' : World} {c : Call} (outcome : Outcome w c w')
    (coherent : w.Coherent) : w'.Coherent := by
  cases outcome with
  | begins step => exact coherent.begins step
  | ends step => exact coherent.ends step
  | relabels step => exact coherent.relabels step
  | reserves step => exact coherent.enlists step.toEnlists
  | displaces _ first second => exact (coherent.drops first.toDrops).enlists second.toEnlists
  | resizes _ step => exact coherent.remakes step.toRemakes
  | lapses step => exact coherent.drops step.toDrops
  | moves step => exact coherent.reseats step.toReseats
  | delivers step => exact coherent.delivers step
  | notes _ _ step => exact coherent.notes step
  | tends _ step => exact coherent.tends step

/-- No call leaves the books unsound, whatever its arguments are and whether it succeeds or not. -/
theorem Outcome.sound {w w' : World} {c : Call} (outcome : Outcome w c w') (sound : w.Sound) :
    w'.Sound := by
  cases outcome with
  | begins step => exact sound.begins step
  | ends step => exact sound.ends step
  | relabels step => exact sound.relabels step
  | reserves step => exact sound.reserves step
  | displaces _ first second => exact (sound.lapses first).reserves second
  | resizes _ step => exact sound.resizes step
  | lapses step => exact sound.lapses step
  | moves step => exact sound.moves step
  | delivers step => exact sound.delivers step
  | notes _ _ step => exact sound.notes step
  | tends _ step => exact sound.tends step

theorem Sound.perform {w : World} (sound : w.Sound) (c : Call) : (w.perform c).Sound :=
  (outcome sound c).sound sound

theorem Opening.sound {w : World} (opening : w.Opening) : w.Sound := by
  have slots : ∀ n, w.slot? n = none := by
    intro n
    cases found : w.nodes.get? n with
    | none => simp [slot?, found]
    | some node => simp [slot?, found, (opening.nodes found).2]
  have reserved : ∀ a b, w.reservation? a b = none := by
    intro a b
    cases found : w.attempts.get? a with
    | none => simp [reservation?, found]
    | some s => simp [reservation?, found, (opening.attempts found).2.1.reservations]
  have running : ∀ a c, w.running? a c = none := by
    intro a c
    cases found : w.attempts.get? a with
    | none => simp [running?, found]
    | some s => simp [running?, found, (opening.attempts found).2.1.live]
  have waiting : ∀ a, w.waiting a = [] := by
    intro a
    cases found : w.attempts.get? a with
    | none => simp [World.waiting, found]
    | some s => simp [World.waiting, found, (opening.attempts found).2.1.undelivered]
  exact {
    attemptNamed := fun found => (opening.attempts found).1
    nodeNamed := fun found => (opening.nodes found).1
    agree := by simp [slots, reserved]
    stands := by simp [reserved]
    runs := by simp [running]
    undelivered := by simp [waiting]
    queued := fun found => (opening.attempts found).2.2 }

theorem Sound.after {w : World} (sound : w.Sound) (calls : List Call) : (w.after calls).Sound := by
  induction calls generalizing w with
  | nil => exact sound
  | cons c calls ih => exact ih (sound.perform c)

/-- After any run, a node's slot holds a reservation if and only if its attempt's index has that
    very record there. So a node is in one index at most, under one priority; a record stands in
    one place at most; and a record that stands somewhere says so itself. -/
theorem slots_match_indices {start : World} (opening : start.Opening) (calls : List Call) :
    let w := start.after calls
    (∀ n a p r, w.slot? n = some ⟨a, p, r⟩ ↔ w.reservation? a ⟨p, n⟩ = some r) ∧
    (∀ n a p r a' p' r', w.reservation? a ⟨p, n⟩ = some r → w.reservation? a' ⟨p', n⟩ = some r' →
      a = a' ∧ p = p') ∧
    (∀ a b a' b' r, w.reservation? a b = some r → w.reservation? a' b' = some r →
      a = a' ∧ b = b') ∧
    ∀ a b r, w.reservation? a b = some r → (w.record r).StandsAt a b := by
  have sound := opening.sound.after calls
  refine ⟨fun n a p r => sound.agree, ?_, ?_, ?_⟩
  · intro n a p r a' p' r' one other
    have first := sound.agree.mpr one
    have second := sound.agree.mpr other
    rw [first] at second
    cases second
    exact ⟨rfl, rfl⟩
  · intro a b a' b' r one other
    exact sound.berth_unique one other
  · intro a b r stands
    exact (sound.stands stands).2

/-- A reservation displaces another of its attempt, and a move onto its own node changes nothing. -/
theorem slots_match_indices_sample :
    let calls : List Call := [
      .reserve ⟨"a"⟩ ⟨1⟩ ⟨"n1"⟩ none ⟨⟨"c1"⟩, ⟨"n1"⟩, ⟨4096, 1⟩, ⟨1⟩, false, none⟩,
      .reserve ⟨"a"⟩ ⟨2⟩ ⟨"n1"⟩ (some ⟨0⟩) ⟨⟨"c2"⟩, ⟨"n1"⟩, ⟨2048, 1⟩, ⟨2⟩, false, none⟩,
      .move ⟨"a"⟩ ⟨1⟩ ⟨"n1"⟩ ⟨"n1"⟩,
      .reserve ⟨"b"⟩ ⟨1⟩ ⟨"n1"⟩ none ⟨⟨"c1"⟩, ⟨"n1"⟩, ⟨4096, 1⟩, ⟨1⟩, false, none⟩]
    let w := sample.after calls
    w.slot? ⟨"n1"⟩ = some ⟨⟨"a"⟩, ⟨2⟩, ⟨1⟩⟩ ∧ w.reservation? ⟨"a"⟩ ⟨⟨2⟩, ⟨"n1"⟩⟩ = some ⟨1⟩ ∧
      w.reservation? ⟨"a"⟩ ⟨⟨1⟩, ⟨"n1"⟩⟩ ≠ some ⟨0⟩ := by
  intro calls w
  have held : w.slot? ⟨"n1"⟩ = some ⟨⟨"a"⟩, ⟨2⟩, ⟨1⟩⟩ := by decide
  obtain ⟨agree, _⟩ := slots_match_indices sample_opening calls
  refine ⟨held, (agree _ _ _ _).mp held, fun stale => ?_⟩
  have both := held.symm.trans ((agree _ _ _ _).mpr stale)
  simp at both

end ClusterLedger.World
