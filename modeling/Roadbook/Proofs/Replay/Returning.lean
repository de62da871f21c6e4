import Roadbook.Proofs.Replay.EnRoute

/-!
# Whether a replay gets on to the next fix

The steps on the way to a fix may go on without an end: where batches are not put off at all, one
that is refused is handed out again at once. `Replay.Arises.returns_iff` says when they come to an
end, as long as nothing overflows. While batches are put off they do, for there are only so many
quiet periods on the way. Otherwise they do just if only so many batches fail, so never while
everything is refused (`Replay.IsStuck.halt_steps`).
-/

namespace Roadbook

/-- How many quiet periods begin from a time on, up to a last time. -/
def periods (quiet last now : Int) : Nat := ((last - now) / quiet + 1).toNat

section Periods

variable {quiet now : Int} (last : Int)

theorem periods_le_periods (hquiet : 0 < quiet) {later : Int} (h : now ≤ later) :
    periods quiet last later ≤ periods quiet last now := by
  have hdiv : (last - later) / quiet ≤ (last - now) / quiet :=
    Int.ediv_le_ediv hquiet (by omega)
  unfold periods
  omega

/-- One period begins now, and the others after it. -/
theorem periods_add {last : Int} (hquiet : 0 < quiet) (h : now ≤ last) :
    periods quiet last now = periods quiet last (now + quiet) + 1 := by
  have hdiv : (last - (now + quiet)) / quiet = (last - now) / quiet - 1 := by
    rw [← Int.sub_sub, Int.sub_ediv_of_dvd _ (dvd_refl quiet), Int.ediv_self hquiet.ne']
  have hnonneg : 0 ≤ (last - now) / quiet := Int.ediv_nonneg (by omega) hquiet.le
  unfold periods
  omega

end Periods

namespace Weights

/-- A flush that fails whenever it can is handed out and is told of once in each period. -/
def byTime (quiet last now : Int) : Weights where
  timer t := match t.task with
    | .settle => 1
    | .flush _ => 2 * periods quiet last (max t.due now)
  batch := 1 + 2 * periods quiet last (now + quiet)

/-- A flush is handed out and is told of once. -/
def plain : Weights where
  timer t := match t.task with
    | .settle => 1
    | .flush _ => 2
  batch := 1

variable {α : Type}

theorem weighs_plain (config : Config α) (last : Int) :
    Replay.Weighs config 2 last fun _ => plain where
  suits _ _ := ⟨by simp [plain], by simp [plain], by simp [plain], by simp [plain], by simp [plain]⟩
  timer _ _ _ _ _ := le_rfl
  batch _ _ _ _ := le_rfl

theorem isStrict_byTime {quiet last now : Int} (hquiet : 0 < quiet) (hnow : now ≤ last) :
    (byTime quiet last now).IsStrict quiet now := by
  intro area due hdue
  have hadd := periods_add hquiet hnow
  simp only [byTime, max_eq_right hdue, max_eq_left (by omega : now ≤ now + quiet)]
  omega

theorem weighs_byTime {config : Config α} (hquiet : 0 < config.coverage.quiet) (last : Int) :
    Replay.Weighs config 0 last (byTime config.coverage.quiet last) where
  suits now hnow := by
    have hadd := periods_add hquiet hnow
    refine ⟨by simp [byTime], by simp [byTime], fun area due hdue => ?_, fun area due hdue => ?_,
      fun area => ?_⟩
    · simp only [byTime, max_eq_right hdue]
      omega
    · exact (isStrict_byTime hquiet hnow area due hdue).le
    · simp only [byTime, max_eq_left (by omega : now ≤ now + config.coverage.quiet)]
      omega
  timer now later t hle _ := by
    unfold byTime
    dsimp only
    split
    · exact le_rfl
    · exact Nat.mul_le_mul_left _ (periods_le_periods last hquiet (max_le_max_left _ hle))
  batch now later hle _ := by
    have hfewer := periods_le_periods last hquiet
      (Int.add_le_add_right hle config.coverage.quiet)
    simp only [byTime]
    omega

end Weights

namespace Replay

variable {σ α : Type} [Scalar α] [Geodesy α] {rig : Rig σ α} {r : Replay σ α} {target : Int}

/-- The steps on the way to a time come to an end: any number of them that is large enough leads to
one and the same replay, which has not halted. -/
def Returns (rig : Rig σ α) (target : Int) (r : Replay σ α) : Prop :=
  ∃ k r', r'.halt = none ∧ ∀ n, k ≤ n → r.steps rig target n = r'

/-- Once the steps have come to an end, it makes no difference how many more there may be. -/
theorem steps_of_ended : ∀ {k n : Nat} {r : Replay σ α},
    (r.steps rig target k).halt ≠ some .endless → k ≤ n →
      r.steps rig target n = r.steps rig target k
        ∧ r.stepsCalls rig target n = r.stepsCalls rig target k
  | 0, _, _, hended, _ => absurd rfl hended
  | k + 1, 0, _, _, hle => absurd hle (Nat.not_succ_le_zero k)
  | k + 1, n + 1, r, hended, hle => by
    unfold Replay.steps stepsCalls at *
    by_cases hhalt : r.halt.isSome = true
    · simp only [if_pos hhalt, and_self]
    · simp only [if_neg hhalt] at hended ⊢
      rcases hstep : (r.wait rig).step rig target with ⟨_ | _, r'⟩ <;> rw [hstep] at hended
      · obtain ⟨hsteps, hcalls⟩ := steps_of_ended hended (Nat.le_of_succ_le_succ hle)
        exact ⟨hsteps, congrArg _ hcalls⟩
      · exact ⟨rfl, rfl⟩

theorem returns_of_halt {k : Nat} (h : (r.steps rig target k).halt = none) :
    r.Returns rig target :=
  ⟨k, _, h, fun _ hle => (steps_of_ended (by simp [h]) hle).1⟩

/-- What the steps come to in the end is all they ever come to. -/
theorem Returns.not_pause (h : r.Returns rig target) (k : Nat) :
    (r.steps rig target k).halt ≠ some .pause := by
  obtain ⟨k', r', hgoes, hend⟩ := h
  intro hpause
  have hended : (r.steps rig target k).halt ≠ some .endless := by simp [hpause]
  have hsame := (steps_of_ended hended (le_max_left k k')).1
  rw [hend _ (le_max_right k k')] at hsame
  rw [← hsame, hgoes] at hpause
  cases hpause

theorem length_stepsCalls_le : ∀ (k : Nat) (r : Replay σ α),
    (r.stepsCalls rig target k).length ≤ k
  | 0, _ => le_rfl
  | k + 1, r => by
    have hcall : ∀ (r : Replay σ α) (event : Event α), (r.call event).length ≤ 1 := by
      intro r event
      unfold call
      split_ifs <;> simp
    have hone : ((r.wait rig).stepCalls rig target).length ≤ 1 := by
      rcases step_cases rig target (r.wait rig) with ⟨-, -, heq⟩ | ⟨_, _, -, -, heq⟩
        | ⟨_, -, -, -, heq⟩ | ⟨-, -, -, heq⟩ <;> rw [heq]
      · exact Nat.zero_le _
      · exact hcall _ _
      · exact hcall _ _
      · exact Nat.zero_le _
    unfold stepsCalls
    split_ifs
    · exact Nat.zero_le _
    · rw [List.length_append]
      split
      · exact hone.trans (Nat.le_add_left 1 k)
      · rename_i r' _
        have hrest := length_stepsCalls_le k r'
        omega

theorem Returns.failures_le (h : r.Returns rig target) :
    ∃ most, ∀ k, failures (r.stepsCalls rig target k) ≤ most := by
  obtain ⟨k', r', hgoes, hend⟩ := h
  have hended : (r.steps rig target k').halt ≠ some .endless := by
    rw [hend k' le_rfl, hgoes]
    nofun
  refine ⟨k', fun k => List.countP_le_length.trans ?_⟩
  rcases le_total k k' with hle | hle
  · exact (length_stepsCalls_le k r).trans hle
  · rw [(steps_of_ended hended hle).2]
    exact length_stepsCalls_le k' r

theorem handle_not_pause (h : r.halt ≠ some .pause) (event : Event α) :
    (r.handle rig event).halt ≠ some .pause := by
  by_cases hgoes : r.halt = none
  · rcases handle_cases hgoes rig event with ⟨effects, n, -, -, heq⟩ | ⟨_, _, -, heq⟩ <;> rw [heq]
    · rwa [(isCarriedOut rig effects n r).halt]
    · nofun
  · rwa [handle_of_halt hgoes]

/-- No pause on the way is longer than the whole way. -/
theorem steps_not_pause : ∀ (k : Nat) {r : Replay σ α}, r.halt ≠ some .pause →
    (∀ ms, 0 ≤ ms → ms ≤ max target r.clock - r.clock → canWait rig ms) →
      (r.steps rig target k).halt ≠ some .pause
  | 0, _, _, _ => nofun
  | k + 1, r, h, hcan => by
    unfold Replay.steps
    split_ifs with hhalt
    · exact h
    · have hstays := stays_wait rig r
      have hgoes : (r.wait rig).halt ≠ some .pause := hstays.halt ▸ h
      rw [← hstays.clock] at hcan
      rcases step_cases rig target (r.wait rig) with ⟨hpause, -, -⟩ | ⟨event, events, -, heq, -⟩
        | ⟨due, -, hdeadline, heq, -⟩ | ⟨-, -, heq, -⟩
      · have hdeadline : ((r.wait rig).deadlineBy? target).getD target ≤ target := by
          rcases hdue : (r.wait rig).deadlineBy? target with _ | due
          · exact le_rfl
          · exact (of_deadlineBy?_eq_some hdue).1
        refine absurd (hcan _ (Int.sub_nonneg_of_le (le_max_right _ _)) ?_) hpause
        exact Int.sub_le_sub_right (max_le_max_right _ hdeadline) _
      · rw [heq]
        set popped : Replay σ α := { r.wait rig with queue := events }
        have hclock : (popped.handle rig event).clock = (r.wait rig).clock :=
          handle_clock rig popped event
        exact steps_not_pause k (handle_not_pause (r := popped) hgoes event) (hclock ▸ hcan)
      · rw [heq]
        set moved : Replay σ α := { r.wait rig with clock := max due (r.wait rig).clock }
        have hclock : (moved.handle rig .tick).clock = max due (r.wait rig).clock :=
          handle_clock rig moved .tick
        refine steps_not_pause k (handle_not_pause (r := moved) hgoes .tick) fun ms h0 hms => ?_
        rw [hclock] at hms
        have htarget := (of_deadlineBy?_eq_some hdeadline).1
        exact hcan ms h0 (by omega)
      · rw [heq]
        exact hgoes

/-- Something is owed, and no flush is scheduled after a time that the clock has not passed. -/
structure IsStuck (rig : Rig σ α) (target : Int) (r : Replay σ α) : Prop where
  attended : r.IsAttended rig
  goes : r.halt = none
  clock : r.clock ≤ target
  owes : ∃ t id, r.navigator.tracker = some t ∧ t.Owes id
  soon : r.navigator.timers.All fun t => ∀ area, t.task = .flush area → t.due ≤ target

namespace IsStuck

theorem wait (h : r.IsStuck rig target) : (r.wait rig).IsStuck rig target := by
  have hstays := stays_wait rig r
  refine ⟨h.attended.wait, hstays.halt.trans h.goes, hstays.clock.trans_le h.clock, ?_, ?_⟩ <;>
    rw [hstays.navigator]
  · exact h.owes
  · exact h.soon

/-- A batch that is not stored is still owed, and scheduled again for a time that is not later. -/
theorem of_handle (hquiet : rig.config.coverage.quiet ≤ 0) {event : Event α}
    (hafter : (r.handle rig event).IsAttended rig)
    (hnavigator : Navigator.Reachable rig.config r.navigator) (hgoes : r.halt = none)
    (hclock : r.clock ≤ target) (howes : ∃ t id, r.navigator.tracker = some t ∧ t.Owes id)
    (hsoon : r.navigator.timers.All fun t => ∀ area, t.task = .flush area → t.due ≤ target)
    (hevent : event.IsPassing) (hfails : ∀ area, event ≠ .flushed area true)
    (hrange : ¬ r.navigator.Overflows rig.config r.clock event) :
    (r.handle rig event).IsStuck rig target := by
  obtain ⟨o, hok, -⟩ := hnavigator.handle_passing r.clock hevent
  obtain ⟨hnav, hsame, hgone, -, -⟩ := carries_out hgoes hrange hok
  have hset : ∀ task area, task = .flush area →
      r.clock + rig.config.delay task ≤ target := by
    rintro _ area rfl
    show r.clock + rig.config.coverage.quiet ≤ target
    omega
  obtain ⟨t, id, ht, hid⟩ := howes
  obtain ⟨t', ht', hid'⟩ := hnavigator.owes_handle r.clock hevent hfails ht hid
  have hstill := Navigator.all_handle hrange hset fun t ht _ => hsoon t ht
  rw [hok] at ht' hstill
  exact ⟨hafter, hgone.trans hgoes, hsame.trans_le hclock, ⟨t', id, hnav ▸ ht', hid'⟩,
    hnav ▸ hstill⟩

/-- While batches are not put off and all are refused, there always is another step, unless a pause
is too long. -/
theorem step (hquiet : rig.config.coverage.quiet ≤ 0)
    (hrefuses : ∀ host batch, (rig.persist host batch).1 = false) (h : r.IsStuck rig target)
    (hrange : r.navigator.IsInRange rig.config (r.stepCalls rig target))
    (hjobs : r.jobs = []) : r.step rig target = (true, r.haltWith .pause)
      ∨ ∃ r', r.step rig target = (false, r') ∧ r'.IsStuck rig target := by
  rcases step_cases rig target r with ⟨-, heq, -⟩ | ⟨event, events, hqueue, heq, hcalls⟩
    | ⟨due, -, hdeadline, heq, hcalls⟩ | ⟨hqueue, hnone, -, -⟩
  · exact .inl heq
  · have hgives := h.attended.queue event (hqueue ▸ List.mem_cons_self)
    have hfails : ∀ area, event ≠ .flushed area true := by
      rintro area rfl
      rcases hgives with heq | ⟨request | batch, hanswer⟩
      · cases heq
      · cases hanswer
      · obtain ⟨host, heq⟩ := hanswer
        rw [hrefuses] at heq
        cases heq
    rw [hcalls, call_of_goes h.goes] at hrange
    exact .inr ⟨_, heq, of_handle hquiet (h.attended.pop hqueue) h.attended.navigator h.goes h.clock
      h.owes h.soon hgives.isPassing hfails hrange.1⟩
  · have hmoved : ({ r with clock := max due r.clock } : Replay σ α).IsAttended rig :=
      ⟨h.attended.navigator, h.attended.queue, h.attended.awaited⟩
    rw [hcalls, call_of_goes (r := { r with clock := max due r.clock }) h.goes] at hrange
    exact .inr ⟨_, heq, of_handle hquiet (hmoved.handle .tick) h.attended.navigator h.goes
      (max_le (of_deadlineBy?_eq_some hdeadline).1 h.clock) h.owes h.soon trivial nofun hrange.1⟩
  · -- with nothing left to be told of, what is owed is pending, and so it has a deadline
    have haligned := h.attended.navigator.aligned
    obtain ⟨t, id, ht, hid⟩ := h.owes
    have hpending : id ∈ t.pending := by
      rcases hid with hid | ⟨ids, hflight, -⟩
      · exact hid
      · rw [h.attended.inFlight_eq_none h.goes hjobs hqueue ht] at hflight
        cases hflight
    have hsome : t.pending.isEmpty = false := by
      rw [Bool.eq_false_iff, Ne, IdSet.isEmpty_iff]
      exact fun hno => hno id hpending
    have hscheduled : r.navigator.timers.isScheduled (.flush t.area) = true := by
      have hneeds := (haligned.needed (.flush t.area)).2 ⟨t, ht, rfl, hsome⟩
      simpa using hneeds
    obtain ⟨timer, hmem, htask⟩ := Timers.isScheduled_iff.1 hscheduled
    have hlate := of_deadlineBy?_eq_none haligned.valid hnone timer hmem
    exact absurd (h.soon timer hmem t.area htask) (not_le.2 hlate)

theorem halt_steps (hquiet : rig.config.coverage.quiet ≤ 0)
    (hrefuses : ∀ host batch, (rig.persist host batch).1 = false)
    (hprompt : rig.schedule.IsPrompt) : ∀ (k : Nat) {r : Replay σ α}, r.IsStuck rig target →
      r.navigator.IsInRange rig.config (r.stepsCalls rig target k) →
        (r.steps rig target k).halt ≠ none
  | 0, _, _, _ => Option.some_ne_none _
  | k + 1, r, h, hrange => by
    obtain ⟨-, -, -, -, hjobs⟩ := wait_answers rig r
    obtain ⟨hfirst, hmore⟩ := isInRange_steps h.goes hrange
    unfold Replay.steps
    rw [if_neg (by simp [h.goes])]
    rcases h.wait.step hquiet hrefuses hfirst (hjobs hprompt) with heq | ⟨r', heq, hstuck⟩ <;>
      rw [heq]
    · exact Option.some_ne_none _
    · exact halt_steps hquiet hrefuses hprompt k hstuck (hmore r' heq)

theorem not_returns (hquiet : rig.config.coverage.quiet ≤ 0)
    (hrefuses : ∀ host batch, (rig.persist host batch).1 = false)
    (hprompt : rig.schedule.IsPrompt) (h : r.IsStuck rig target)
    (hrange : ∀ k, r.navigator.IsInRange rig.config (r.stepsCalls rig target k)) :
    ¬ r.Returns rig target := by
  rintro ⟨k, r', hgoes, hend⟩
  exact h.halt_steps hquiet hrefuses hprompt k (hrange k) ((hend k le_rfl).symm ▸ hgoes)

end IsStuck

theorem IsAttended.returns_of_burden {W : Int → Weights} {cost : Nat} (h : r.IsAttended rig)
    (hgoes : r.halt = none)
    (hrange : ∀ k, r.navigator.IsInRange rig.config (r.stepsCalls rig target k))
    (hW : Weighs rig.config cost (max target r.clock) W)
    (hfree : rig.schedule.IsPrompt
      ∨ ∀ now ≤ max target r.clock, (W now).IsStrict rig.config.coverage.quiet now)
    (hpause : ∀ k, (r.steps rig target k).halt ≠ some .pause) {most : Nat}
    (hmost : ∀ k, cost * failures (r.stepsCalls rig target k) ≤ most) :
    r.Returns rig target := by
  set k := r.burden (W r.clock) + most + 1
  have hless : r.burden (W r.clock) + cost * failures (r.stepsCalls rig target k) < k :=
    Nat.lt_succ_of_le (Nat.add_le_add_left (hmost k) _)
  exact returns_of_halt
    ((ends_of_burden hW hfree k h hgoes (hrange k) le_rfl hless).resolve_right (hpause k))

/-- On the way to a time on which nothing overflows, steps come to an end as long as batches are put
off at all, unless a pause is too long. Where every job is done at once they do so just if only so
many batches fail. No pause is too long if none up to the whole way is. But where batches are not
put off and are all refused, and something is owed whose flush is not scheduled for after that time,
there is no end of steps. -/
theorem Arises.returns_iff (h : Arises rig r) (hgoes : r.halt = none) (target : Int)
    (hrange : ∀ k, r.navigator.IsInRange rig.config (r.stepsCalls rig target k)) :
    (0 < rig.config.coverage.quiet →
      (r.Returns rig target ↔ ∀ k, (r.steps rig target k).halt ≠ some .pause))
      ∧ (rig.schedule.IsPrompt →
        (r.Returns rig target ↔ (∀ k, (r.steps rig target k).halt ≠ some .pause)
          ∧ ∃ most, ∀ k, failures (r.stepsCalls rig target k) ≤ most))
      ∧ ((∀ ms, 0 ≤ ms → ms ≤ max target r.clock - r.clock → canWait rig ms) →
        ∀ k, (r.steps rig target k).halt ≠ some .pause)
      ∧ (rig.config.coverage.quiet ≤ 0 → rig.schedule.IsPrompt →
        (∀ host batch, (rig.persist host batch).1 = false) → r.clock ≤ target →
        (∃ t id, r.navigator.tracker = some t ∧ t.Owes id) →
        (r.navigator.timers.All fun t => ∀ area, t.task = .flush area → t.due ≤ target) →
        ¬ r.Returns rig target) := by
  have hattended := h.isAttended
  refine ⟨fun hquiet => ⟨Returns.not_pause, fun hpause => ?_⟩,
    fun hprompt => ⟨fun hreturns => ⟨hreturns.not_pause, hreturns.failures_le⟩, ?_⟩,
    fun hcan k => steps_not_pause k (by simp [hgoes]) hcan,
    fun hquiet hprompt hrefuses hclock howes hsoon => ?_⟩
  · exact hattended.returns_of_burden hgoes hrange (Weights.weighs_byTime hquiet _)
      (.inr fun _ hnow => Weights.isStrict_byTime hquiet hnow) hpause
      fun k => (Nat.zero_mul _).le
  · rintro ⟨hpause, most, hmost⟩
    exact hattended.returns_of_burden hgoes hrange (Weights.weighs_plain rig.config _)
      (.inl hprompt) hpause fun k => Nat.mul_le_mul_left 2 (hmost k)
  · exact IsStuck.not_returns hquiet hrefuses hprompt
      ⟨hattended, hgoes, hclock, howes, hsoon⟩ hrange

end Replay

namespace Trial

/-- Every batch is refused, and put off for a time. -/
def refusing (quiet : Int) : Rig Unit ℚ where
  config := { (.standard : Config ℚ) with
    coverage := { (.standard : Config ℚ).coverage with quiet } }
  speedup := 0
  autoResume := false
  follow := true
  schedule := .prompt
  directions _ := none
  persist _ _ := (false, ())
  rememberArea _ _ := ()
  display _ _ := ()

/-- The segment at the start of the road has been made driven. -/
def unsaved (quiet : Int) : Replay Unit ℚ :=
  ((Replay.start ()).load (refusing quiet) (area "north")).drive (refusing quiet)
    [.ofPoint (place 0) 0, .ofPoint (place 0) 1000]

theorem arises_unsaved (quiet : Int) : Replay.Arises (refusing quiet) (unsaved quiet) :=
  ((Replay.Arises.start ()).load (area "north")).drive _

theorem unsaved_owes : ∃ t id, (unsaved 0).navigator.tracker = some t ∧ t.Owes id := by
  have hpending : (unsaved 0).navigator.tracker.map (·.pending.toList) = some [1] := by
    decide +kernel
  obtain ⟨t, ht, hids⟩ := Option.map_eq_some_iff.1 hpending
  refine ⟨t, 1, ht, .inl ?_⟩
  rw [IdSet.mem_def, hids]
  exact List.mem_singleton_self 1

theorem unsaved_soon : (unsaved 0).navigator.timers.All fun t => t.due ≤ 5000 := by
  unfold Timers.All
  decide +kernel

/-- A second of the replay takes longer than can be waited for. -/
def crawling : Rig Unit ℚ := { prompt with speedup := 1 / 10 ^ 30 }

/-- The first fix has been taken in, and the next one is a second away. -/
def setOff : Replay Unit ℚ :=
  ((Replay.start ()).load crawling (area "north")).drive crawling [.ofPoint (place 0) 0]

end Trial

namespace Replay

/-- Segments that cannot be stored are tried again every second, or without end. -/
theorem returns_iff_unsaved : (Trial.unsaved 1000).Returns (Trial.refusing 1000) 5000
    ∧ ¬ (Trial.unsaved 0).Returns (Trial.refusing 0) 5000 := by
  have hgoes : (Trial.unsaved 1000).halt = none := by decide +kernel
  have hgoes' : (Trial.unsaved 0).halt = none := by decide +kernel
  have hcan : ∀ ms, canWait (Trial.refusing 1000) ms := fun ms => ⟨fun _ => rfl, .inr (.inl le_rfl)⟩
  obtain ⟨hreturns, -, hpause, -⟩ := Arises.returns_iff (Trial.arises_unsaved 1000) hgoes 5000
    fun k => Navigator.isInRange_rat _ _ _
  obtain ⟨-, -, -, hendless⟩ := Arises.returns_iff (Trial.arises_unsaved 0) hgoes' 5000
    fun k => Navigator.isInRange_rat _ _ _
  refine ⟨(hreturns (by decide)).2 (hpause fun ms _ _ => hcan ms), ?_⟩
  exact hendless le_rfl (fun _ _ => rfl) (fun _ _ => rfl) (by decide +kernel) Trial.unsaved_owes
    fun t ht _ _ => Trial.unsaved_soon t ht

/-- A batch that cannot be stored is handed out again and again where none is put off, even if no
pause is too long. Where batches are put off a pause may be too long, at the very first step. -/
theorem refused_batch_comes_back :
    (¬ ∀ (rig : Rig Unit ℚ) (r : Replay Unit ℚ) (target : Int),
      rig.schedule.IsPrompt → (∀ ms, canWait rig ms) → Arises rig r → r.halt = none →
        r.Returns rig target)
      ∧ ¬ ∀ (rig : Rig Unit ℚ) (r : Replay Unit ℚ) (target : Int),
        rig.schedule.IsPrompt → 0 < rig.config.coverage.quiet → Arises rig r → r.halt = none →
          r.Returns rig target := by
  constructor
  · intro hall
    have hgoes : (Trial.unsaved 0).halt = none := by decide +kernel
    have hclock : (Trial.unsaved 0).clock ≤ 5000 := by decide +kernel
    have harises := Trial.arises_unsaved 0
    have hstuck : (Trial.unsaved 0).IsStuck (Trial.refusing 0) 5000 :=
      ⟨harises.isAttended, hgoes, hclock, Trial.unsaved_owes,
        fun t ht _ _ => Trial.unsaved_soon t ht⟩
    exact hstuck.not_returns le_rfl (fun _ _ => rfl) (fun _ _ => rfl)
      (fun k => Navigator.isInRange_rat _ _ _)
      (hall (Trial.refusing 0) (Trial.unsaved 0) 5000 (fun _ _ => rfl)
        (fun _ => ⟨fun _ => rfl, .inr (.inl le_rfl)⟩) harises hgoes)
  · intro hall
    have hgoes : Trial.setOff.halt = none := by decide +kernel
    have hpause : (Trial.setOff.steps Trial.crawling 1000 1).halt = some .pause := by
      decide +kernel
    have harises : Arises Trial.crawling Trial.setOff :=
      ((Arises.start ()).load (Trial.area "north")).drive _
    exact (hall Trial.crawling Trial.setOff 1000 (fun _ _ => rfl) (by decide) harises
      hgoes).not_pause 1 hpause

end Replay

end Roadbook
