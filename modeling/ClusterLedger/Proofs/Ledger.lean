import ClusterLedger.Proofs.Booking
/- The figures of every attempt are the sums over what it holds, in every partition. -/
namespace ClusterLedger.World

def sumOn (w : World) (q : QueueName) (f : Attempt → Nat) : Nat :=
  ((w.attempts.values.filter (·.queue == q)).map f).sum

def heldOn (w : World) (q : QueueName) : Tally :=
  fun g p d => w.sumOn q fun s => (w.holding s).figure g p d

/-- What attempts hold fits the widths, each sum for itself. -/
def Fits (w : World) : Prop :=
  ∀ a s, w.attempts.get? a = some s → ∀ g p d, (w.holding s).figure g p d ≤ d.capacity

def FitsOnQueues (w : World) : Prop := ∀ q g p d, w.heldOn q g p d ≤ d.capacity

theorem le_sumOn {w : World} {a : AttemptId} {s : Attempt} (found : w.attempts.get? a = some s)
    (f : Attempt → Nat) : f s ≤ w.sumOn s.queue f := by
  have member : s ∈ w.attempts.values.filter (·.queue == s.queue) := by
    simp [Table.mem_values.mpr ⟨a, found⟩]
  exact List.le_sum_of_mem (List.mem_map_of_mem member)

theorem FitsOnQueues.fits {w : World} (fits : w.FitsOnQueues) : w.Fits := by
  intro a s found g p d
  exact (le_sumOn found fun s => (w.holding s).figure g p d).trans (fits s.queue g p d)

def load (w : World) (d : Dimension) : Nat :=
  (w.attempts.values.map fun s => (w.holding s).whole d).sum

theorem sumOn_le_load {w : World} {q : QueueName} {d : Dimension} {f : Attempt → Nat}
    (part : ∀ s, f s ≤ (w.holding s).whole d) : w.sumOn q f ≤ w.load d := by
  have within : w.sumOn q f ≤
      ((w.attempts.values.filter (·.queue == q)).map fun s => (w.holding s).whole d).sum :=
    List.sum_le_sum fun s _ => part s
  exact within.trans ((List.filter_sublist.map _).sum_le_sum fun _ _ => Nat.zero_le _)

theorem fitsOnQueues_of_load {w : World} (memory : w.load .memory ≤ Dimension.memory.capacity)
    (vcores : w.load .vcores ≤ Dimension.vcores.capacity) : w.FitsOnQueues := by
  intro q g p d
  have bounded : w.heldOn q g p d ≤ w.load d :=
    sumOn_le_load fun s => (w.holding s).figure_le_whole g p d
  cases d
  · exact bounded.trans memory
  · exact bounded.trans vcores

/-- What figures an attempt should show: what it holds, and what was asked for its master when the
    run began. -/
def due (w : World) (s₀ s : Attempt) : Tally := fun g p d =>
  (w.holding s).figure g p d + Tally.single .amResource s₀.amPartition s₀.amResource g p d

def Balanced (start w : World) : Prop :=
  ∀ a s, w.attempts.get? a = some s →
    ∃ s₀, start.attempts.get? a = some s₀ ∧ s.usage.Shows (w.due s₀ s)

variable {start w w' : World} {a : AttemptId} {s s' : Attempt} {postings : Usage → Usage}
  {notes : QueueMetrics → QueueMetrics} {gone come : Holding} {given : Option Resource}

theorem holding_empty (live : s.live = ∅) (reserved : s.reservations = ∅) : w.holding s = {} := by
  rw [holding, live, reserved]
  rfl

theorem Opening.balanced (opening : start.Opening) : Balanced start start := by
  intro a s found
  obtain ⟨_, untouched, _⟩ := opening.attempts found
  refine ⟨s, found, fun g x d => ?_⟩
  rw [due, holding_empty untouched.live untouched.reservations, untouched.usage, Usage.get_assign,
    Holding.figure_nothing, Nat.zero_add, Tally.single]
  split
  · rfl
  · cases g <;> exact Resource.amount_zero d

theorem Entry.balanced (entry : Entry w w' a s s' postings notes gone come given)
    (balanced : Balanced start w)
    (fits : come = {} ∨ ∀ g p d, (w'.holding s').figure g p d ≤ d.capacity) :
    Balanced start w' := by
  intro b t found
  rw [entry.attempts] at found
  split at found
  · rename_i same
    obtain rfl := Option.some.inj found
    subst same
    obtain ⟨s₀, began, shows⟩ := balanced b s entry.before
    refine ⟨s₀, began, ?_⟩
    rw [entry.usage]
    refine entry.posts.shows shows ?_ (fits.imp_right fun fits => ?_)
    · intro g p d
      have moved := entry.figure g p d
      simp only [due]
      omega
    · intro g p d
      have fit := fits g p d
      have within := (s.usage.get g p).amount_le_capacity d
      have shown := shows g p d
      -- Nothing is held under `amResource`, and what is due there is shown already.
      cases g <;> simp_all [due, Tally.single]
  · rename_i apart
    obtain ⟨s₀, began, shows⟩ := balanced b t found
    refine ⟨s₀, began, ?_⟩
    intro g p d
    rw [due, entry.others apart found]
    exact shows g p d

theorem Tends.balanced (tends : Tends w w') (balanced : Balanced start w) : Balanced start w' := by
  intro b t found
  obtain ⟨s₀, began, shows⟩ := balanced b t (tends.attempts ▸ found)
  refine ⟨s₀, began, ?_⟩
  intro g p d
  rw [due, holding_kept (fun x => congrArg _ (tends.records x))
    fun x => congrArg _ (tends.records x)]
  exact shows g p d

theorem Booked.balanced {c : Call} (booked : Booked w c w') (balanced : Balanced start w)
    (fits : w'.Fits) : Balanced start w' := by
  cases booked with
  | once entry _ =>
    have found := (entry.attempts _).trans (if_pos rfl)
    exact entry.balanced balanced (.inr (fits _ _ found))
  | twice first second _ =>
    have found := (second.attempts _).trans (if_pos rfl)
    exact second.balanced (first.balanced balanced (.inl rfl)) (.inr (fits _ _ found))
  | never tends _ => exact tends.balanced balanced

theorem balanced_after {calls : List Call} (opening : start.Opening)
    (along : start.Along (fun w c => w.NamesPartition c ∧ (w.perform c).Fits) calls) :
    Balanced start (start.after calls) := by
  have kept : (start.after calls).Sound ∧ Balanced start (start.after calls) := by
    refine along.preserves (fun w => w.Sound ∧ Balanced start w) ?_
      ⟨opening.sound, opening.balanced⟩
    intro w c ⟨sound, balanced⟩ ⟨names, fits⟩
    exact ⟨sound.perform c, (booked sound c names.own).balanced balanced fits⟩
  exact kept.2

/-- Along every run whose completions name the recorded partition and whose sums fit their widths,
    each figure of an attempt is the sum over what it holds under the partition, and the figure of
    its master's request is as the attempt was made with. -/
theorem figures_match_holdings (opening : start.Opening) {calls : List Call}
    (along : start.Along (fun w c => w.NamesPartition c ∧ (w.perform c).Fits) calls) :
    let w := start.after calls
    ∀ a s, w.attempts.get? a = some s → ∃ s₀, start.attempts.get? a = some s₀ ∧ ∀ p,
      (∀ d, (s.usage.get .used p).amount d = total (w.holding s).live p d) ∧
      (∀ d, (s.usage.get .reserved p).amount d = total (w.holding s).reserved p d) ∧
      (∀ d, (s.usage.get .amUsed p).amount d =
        total ((w.holding s).live.filter (·.isMaster)) p d) ∧
      s.usage.get .amResource p = s₀.usage.get .amResource p := by
  intro w a s found
  obtain ⟨s₀, began, shows⟩ := balanced_after opening along a s found
  refine ⟨s₀, began, fun p => ⟨?_, ?_, ?_, ?_⟩⟩
  · intro d
    rw [shows .used p d, due]
    rfl
  · intro d
    rw [shows .reserved p d, due]
    rfl
  · intro d
    rw [shows .amUsed p d, due]
    rfl
  · refine Resource.eq_of_amount fun d => ?_
    rw [shows .amResource p d, due, (opening.attempts began).2.1.usage, Usage.get_assign,
      Tally.single]
    split <;> simp [Usage.get, Usage.figures]

theorem figures_match_holdings_sample :
    let calls : List Call := [
      .reserve ⟨"a"⟩ ⟨1⟩ ⟨"n1"⟩ none ⟨⟨"c1"⟩, ⟨"n1"⟩, ⟨4096, 1⟩, ⟨1⟩, false, none⟩,
      .setPartition ⟨"n1"⟩ "x",
      .reserve ⟨"a"⟩ ⟨1⟩ ⟨"n1"⟩ (some ⟨0⟩) ⟨⟨"c1"⟩, ⟨"n1"⟩, ⟨1024, 1⟩, ⟨1⟩, false, none⟩,
      .request ⟨"a"⟩ [⟨⟨1⟩, anyPlace, ⟨512, 1⟩, 1, true, ""⟩],
      .allocate ⟨"a"⟩ .offSwitch ⟨"n2"⟩ ⟨1⟩ ⟨⟨"c2"⟩, ⟨"n2"⟩, ⟨512, 1⟩, ⟨1⟩, true, none⟩,
      .complete ⟨"a"⟩ ⟨"c2"⟩ ⟨0, ""⟩ .finished ""]
    ∃ s, (sample.after calls).attempts.get? ⟨"a"⟩ = some s ∧
      (s.usage.get .reserved "x").amount .memory =
        total ((sample.after calls).holding s).reserved "x" .memory := by
  intro calls
  have names : (sample.after (calls.take 5)).NamesPartition
      (.complete ⟨"a"⟩ ⟨"c2"⟩ ⟨0, ""⟩ .finished "") := by
    intro r found
    have known : (sample.after (calls.take 5)).running? ⟨"a"⟩ ⟨"c2"⟩ = some ⟨1⟩ := by decide
    obtain rfl := Option.some.inj (known.symm.trans found)
    decide
  have along : sample.Along (fun w c => w.NamesPartition c ∧ (w.perform c).Fits) calls := by
    refine ⟨⟨trivial, ?_⟩, ⟨trivial, ?_⟩, ⟨trivial, ?_⟩, ⟨trivial, ?_⟩, ⟨trivial, ?_⟩, ⟨names, ?_⟩,
      trivial⟩
    all_goals exact (fitsOnQueues_of_load (by decide) (by decide)).fits
  obtain ⟨s, found⟩ := Option.isSome_iff_exists.mp
    (by decide : ((sample.after calls).attempts.get? ⟨"a"⟩).isSome = true)
  obtain ⟨_, _, matching⟩ := figures_match_holdings sample_opening along ⟨"a"⟩ s found
  exact ⟨s, found, (matching "x").2.1 .memory⟩

end ClusterLedger.World
