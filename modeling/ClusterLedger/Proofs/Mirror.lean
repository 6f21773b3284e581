import ClusterLedger.Proofs.Ledger
/- Queues mirror their attempts: figures are sums of the attempts' own, and the counters tell how
   many reservations stand and what was given back. -/
namespace ClusterLedger.World

def givenBack (w : World) : List Call → List (QueueName × Resource)
  | [] => []
  | c :: calls => (w.givesBack c).toList ++ (w.perform c).givenBack calls

def givenTo (q : QueueName) (history : List (QueueName × Resource)) : List Resource :=
  (history.filter (·.1 == q)).map (·.2)

variable {w w' : World} {a : AttemptId} {s s' : Attempt} {postings : Usage → Usage}
  {notes : QueueMetrics → QueueMetrics} {gone come : Holding} {given : Option Resource}
  {q : QueueName} {queue : Queue} {history : List (QueueName × Resource)}

theorem Turn.sumOn (turn : Turn w w' a s s' postings notes) (q : QueueName) (f f' : Attempt → Nat)
    (others : ∀ {b t}, b ≠ a → w.attempts.get? b = some t → f' t = f t) :
    ∃ rest, w.sumOn q f = (if q = s.queue then f s else 0) + rest ∧
      w'.sumOn q f' = (if q = s.queue then f' s' else 0) + rest := by
  -- Up to order, both tables of attempts are one attempt and the same others.
  obtain ⟨kept, before, after, elsewhere⟩ := Table.values_change turn.before turn.attempts
  refine ⟨((kept.filter (·.queue == q)).map f).sum, ?_, ?_⟩
  · rw [World.sumOn, ((before.filter _).map f).sum_eq]
    by_cases here : q = s.queue
    · simp [here]
    · simp [here, Ne.symm here]
  · have same : (kept.filter (·.queue == q)).map f' = (kept.filter (·.queue == q)).map f := by
      refine List.map_congr_left fun t member => ?_
      obtain ⟨b, apart, found⟩ := elsewhere t (List.mem_filter.mp member).1
      exact others apart found
    rw [World.sumOn, ((after.filter _).map f').sum_eq, ← same]
    by_cases here : q = s.queue
    · simp [here, turn.queue]
    · simp [here, Ne.symm here, turn.queue]

structure Mirrors (w : World) (q : QueueName) (queue : Queue) (given : List Resource) : Prop where
  figures : queue.usage.Shows (w.heldOn q)
  reservations : queue.metrics.reservedContainers = w.sumOn q (·.reservations.size)
  releases : queue.metrics.releasedContainers = given.length
  released : ∀ d, queue.metrics.released.amount d =
    min d.capacity (given.map (·.amount d)).sum

def Mirrored (w : World) (history : List (QueueName × Resource)) : Prop :=
  ∀ q queue, w.queues.get? q = some queue → w.Mirrors q queue (givenTo q history)

theorem givenTo_append (history more : List (QueueName × Resource)) :
    givenTo q (history ++ more) = givenTo q history ++ givenTo q more := by
  simp [givenTo]

theorem Entry.heldOn (entry : Entry w w' a s s' postings notes gone come given) (g : Figure)
    (p : Partition) (d : Dimension) :
    w'.heldOn s.queue g p d =
      w.heldOn s.queue g p d - gone.figure g p d + come.figure g p d := by
  obtain ⟨rest, before, after⟩ := entry.toTurn.sumOn s.queue
    (fun t => (w.holding t).figure g p d) (fun t => (w'.holding t).figure g p d)
    fun apart found => by rw [entry.others apart found]
  have moved := entry.figure g p d
  simp only [World.heldOn, before, after, ↓reduceIte]
  omega

theorem Entry.mirrors_own (entry : Entry w w' a s s' postings notes gone come given)
    {given' : List Resource} (mirrors : w.Mirrors s.queue queue given')
    (fits : come = {} ∨ w'.FitsOnQueues) :
    w'.Mirrors s.queue
      { queue with usage := postings queue.usage, metrics := notes queue.metrics }
      (given' ++ given.toList) where
  figures := entry.posts.shows mirrors.figures entry.heldOn (fits.imp_right fun fits => fits _)
  reservations := by
    obtain ⟨rest, before, after⟩ := entry.toTurn.sumOn s.queue (·.reservations.size)
      (·.reservations.size) fun _ _ => rfl
    have counted := mirrors.reservations
    have size := entry.size
    simp only [↓reduceIte] at before after
    rw [before] at counted
    rw [entry.reservations _ (by omega), after]
    omega
  releases := by
    rw [entry.releases, mirrors.releases, List.length_append]
  released := by
    intro d
    have sums := mirrors.released d
    rw [entry.released]
    cases given with
    | none => simpa using sums
    | some r =>
      simp only [Option.elim, Option.toList, List.map_append, List.sum_append, List.map_cons,
        List.map_nil, List.sum_singleton, Resource.amount_add]
      omega

theorem Entry.mirrors_other (entry : Entry w w' a s s' postings notes gone come given)
    (apart : q ≠ s.queue) {given' : List Resource} (mirrors : w.Mirrors q queue given') :
    w'.Mirrors q queue given' where
  figures := by
    intro g p d
    obtain ⟨rest, before, after⟩ := entry.toTurn.sumOn q
      (fun t => (w.holding t).figure g p d) (fun t => (w'.holding t).figure g p d)
      fun other found => by rw [entry.others other found]
    simp only [apart, ↓reduceIte] at before after
    have shown := mirrors.figures g p d
    rw [World.heldOn] at shown ⊢
    omega
  reservations := by
    obtain ⟨rest, before, after⟩ := entry.toTurn.sumOn q (·.reservations.size)
      (·.reservations.size) fun _ _ => rfl
    simp only [apart, ↓reduceIte] at before after
    have counted := mirrors.reservations
    omega
  releases := mirrors.releases
  released := mirrors.released

theorem Entry.mirrored (entry : Entry w w' a s s' postings notes gone come given)
    (mirrored : w.Mirrored history) (fits : come = {} ∨ w'.FitsOnQueues) :
    w'.Mirrored (history ++ (given.map (s.queue, ·)).toList) := by
  intro q queue found
  rw [entry.queues] at found
  split at found
  · rename_i same
    obtain ⟨old, was, rfl⟩ := Option.map_eq_some_iff.mp found
    have kept := entry.mirrors_own (mirrored _ _ was) fits
    rw [givenTo_append, same]
    cases given <;> simpa [givenTo] using kept
  · rename_i apart
    have kept := entry.mirrors_other apart (mirrored q queue found)
    rw [givenTo_append]
    cases given with
    | none => simpa [givenTo] using kept
    | some r => simpa [givenTo, Ne.symm apart] using kept

theorem Tends.mirrored (tends : Tends w w') (mirrored : w.Mirrored history) :
    w'.Mirrored history := by
  intro q queue found
  have mirrors := mirrored q queue (tends.queues ▸ found)
  have holdings : ∀ t, w'.holding t = w.holding t :=
    holding_kept (fun x => congrArg _ (tends.records x)) fun x => congrArg _ (tends.records x)
  refine ⟨fun g p d => ?_, ?_, mirrors.releases, mirrors.released⟩
  · have shown := mirrors.figures g p d
    simpa [World.heldOn, World.sumOn, tends.attempts, holdings] using shown
  · have counted := mirrors.reservations
    simpa [World.sumOn, tends.attempts] using counted

theorem Booked.mirrored {c : Call} (booked : Booked w c w') (mirrored : w.Mirrored history)
    (fits : w'.FitsOnQueues) : w'.Mirrored (history ++ (w.givesBack c).toList) := by
  cases booked with
  | once entry back =>
    rw [back]
    exact entry.mirrored mirrored (.inr fits)
  | twice first second back =>
    rw [back]
    simpa using second.mirrored (first.mirrored mirrored (.inl rfl)) (.inr fits)
  | never tends back =>
    rw [back]
    simpa using tends.mirrored mirrored

theorem Opening.mirrored (opening : w.Opening) : w.Mirrored [] := by
  intro q queue found
  obtain rfl := opening.queues found
  have empty : ∀ t ∈ w.attempts.values, w.holding t = {} ∧ t.reservations.size = 0 := by
    intro t member
    obtain ⟨b, found⟩ := Table.mem_values.mp member
    obtain ⟨_, untouched, _⟩ := opening.attempts found
    refine ⟨holding_empty untouched.live untouched.reservations, ?_⟩
    rw [untouched.reservations]
    rfl
  have none : ∀ f : Attempt → Nat, (∀ t ∈ w.attempts.values, f t = 0) → w.sumOn q f = 0 := by
    intro f zero
    refine List.sum_eq_zero fun x member => ?_
    obtain ⟨t, listed, rfl⟩ := List.mem_map.mp member
    exact zero t (List.mem_filter.mp listed).1
  refine ⟨fun g p d => ?_, ?_, rfl, fun d => ?_⟩
  · rw [World.heldOn, none _ fun t member => by rw [(empty t member).1, Holding.figure_nothing]]
    cases g <;> exact Resource.amount_zero d
  · exact (none _ fun t member => (empty t member).2).symm
  · exact (Resource.amount_zero d).trans (by simp [givenTo])

theorem mirrored_after {calls : List Call} (sound : w.Sound) (mirrored : w.Mirrored history)
    (along : w.Along (fun w c => w.NamesPartition c ∧ (w.perform c).FitsOnQueues) calls) :
    (w.after calls).Mirrored (history ++ w.givenBack calls) := by
  induction calls generalizing w history with
  | nil => simpa [givenBack] using mirrored
  | cons c calls ih =>
    obtain ⟨⟨names, fits⟩, rest⟩ := along
    have next := (booked sound c names.own).mirrored mirrored fits
    simpa [givenBack, List.append_assoc] using ih (sound.perform c) next rest

/-- Along every run whose completions name the recorded partition and whose sums fit their widths,
    the figures of a queue are the sums of its attempts' own, its count of reservations is how many
    they have, and its releases are the completions of theirs that succeeded. -/
theorem queues_mirror_attempts {start : World} (opening : start.Opening) {calls : List Call}
    (along : start.Along (fun w c => w.NamesPartition c ∧ (w.perform c).FitsOnQueues) calls) :
    let w := start.after calls
    ∀ q queue, w.queues.get? q = some queue →
      (∀ g, g ≠ .amResource → ∀ p d, (queue.usage.get g p).amount d =
        w.sumOn q fun s => (s.usage.get g p).amount d) ∧
      queue.metrics.reservedContainers = w.sumOn q (·.reservations.size) ∧
      queue.metrics.releasedContainers = (givenTo q (start.givenBack calls)).length ∧
      ∀ d, ((givenTo q (start.givenBack calls)).map (·.amount d)).sum ≤ d.capacity →
        queue.metrics.released.amount d =
          ((givenTo q (start.givenBack calls)).map (·.amount d)).sum := by
  intro w q queue found
  have mirrors := mirrored_after opening.sound opening.mirrored along q queue found
  rw [List.nil_append] at mirrors
  have balanced := balanced_after opening (along.imp fun _ _ fits => ⟨fits.1, fits.2.fits⟩)
  refine ⟨?_, mirrors.reservations, mirrors.releases, ?_⟩
  · intro g held p d
    rw [mirrors.figures g p d, heldOn, sumOn, sumOn]
    congr 1
    refine List.map_congr_left fun s member => ?_
    obtain ⟨a, at_⟩ := Table.mem_values.mp (List.mem_filter.mp member).1
    obtain ⟨s₀, _, shows⟩ := balanced a s at_
    rw [shows g p d, due, Tally.single, if_neg fun asked => held asked.1, Nat.add_zero]
  · intro d fits
    rw [mirrors.released d, Nat.min_eq_right fits]

theorem queues_mirror_attempts_sample :
    let calls : List Call := [
      .reserve ⟨"a"⟩ ⟨1⟩ ⟨"n1"⟩ none ⟨⟨"c1"⟩, ⟨"n1"⟩, ⟨4096, 1⟩, ⟨1⟩, false, none⟩,
      .reserve ⟨"a"⟩ ⟨2⟩ ⟨"n1"⟩ none ⟨⟨"c2"⟩, ⟨"n1"⟩, ⟨2048, 1⟩, ⟨2⟩, false, none⟩,
      .request ⟨"b"⟩ [⟨⟨1⟩, anyPlace, ⟨512, 1⟩, 1, true, ""⟩],
      .allocate ⟨"b"⟩ .offSwitch ⟨"n2"⟩ ⟨1⟩ ⟨⟨"c1"⟩, ⟨"n2"⟩, ⟨512, 1⟩, ⟨1⟩, true, none⟩,
      .complete ⟨"b"⟩ ⟨"c1"⟩ ⟨0, ""⟩ .finished ""]
    ∃ queue, (sample.after calls).queues.get? ⟨"q"⟩ = some queue ∧
      queue.metrics.reservedContainers =
        (sample.after calls).sumOn ⟨"q"⟩ (·.reservations.size) ∧
      queue.metrics.released.amount .memory =
        ((givenTo ⟨"q"⟩ (sample.givenBack calls)).map (·.amount .memory)).sum := by
  intro calls
  have names : (sample.after (calls.take 4)).NamesPartition
      (.complete ⟨"b"⟩ ⟨"c1"⟩ ⟨0, ""⟩ .finished "") := by
    intro r found
    have known : (sample.after (calls.take 4)).running? ⟨"b"⟩ ⟨"c1"⟩ = some ⟨2⟩ := by decide
    obtain rfl := Option.some.inj (known.symm.trans found)
    decide
  have along : sample.Along (fun w c => w.NamesPartition c ∧ (w.perform c).FitsOnQueues)
      calls := by
    refine ⟨⟨trivial, ?_⟩, ⟨trivial, ?_⟩, ⟨trivial, ?_⟩, ⟨trivial, ?_⟩, ⟨names, ?_⟩, trivial⟩
    all_goals exact fitsOnQueues_of_load (by decide) (by decide)
  obtain ⟨queue, found⟩ := Option.isSome_iff_exists.mp
    (by decide : ((sample.after calls).queues.get? ⟨"q"⟩).isSome = true)
  obtain ⟨_, reservations, _, released⟩ :=
    queues_mirror_attempts sample_opening along ⟨"q"⟩ queue found
  exact ⟨queue, found, reservations, released .memory (by decide)⟩

end ClusterLedger.World
