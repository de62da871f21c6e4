import Roadbook.Proofs.Guidance.Punctual
import Roadbook.Proofs.Replay.Course
import Roadbook.Proofs.Replay.Replies

/-!
# The clock of a replay

`Replay.driveCalls` are the calls that driving makes, each with the time on the clock. On the way to
a fix the clock stops at every deadline, so a fix is taken in when all that was due by its time is
done. As long as no overflow goes unnoticed no deadline is passed (`Replay.IsOnCourse`), and each
call runs its tasks at the very time they are due (`Replay.Arises.drives_on_time`).
-/

namespace Roadbook

def Event.fix? {α : Type} : Event α → Option (Fix α)
  | .fix f => some f
  | _ => none

theorem Event.IsReply.fix?_eq_none {α : Type} {event : Event α} (h : event.IsReply) :
    event.fix? = none := by
  cases event <;> first | rfl | cases h

namespace Replay

variable {σ α : Type}

/-- The call that handling an event comes to, which is none once the replay has halted. -/
def call (r : Replay σ α) (event : Event α) : List (Int × Event α) :=
  if r.halt.isSome then [] else [(r.clock, event)]

variable [Scalar α] [Geodesy α]

/-- The call of a step on the way to a time. -/
def stepCalls (rig : Rig σ α) (target : Int) (r : Replay σ α) : List (Int × Event α) :=
  let deadline := r.deadlineBy? target
  let next := max (deadline.getD target) r.clock
  if ¬ canWait rig (next - r.clock) then []
  else match r.queue with
    | event :: _ => r.call event
    | [] => if deadline.isSome then { r with clock := next }.call .tick else []

/-- The calls on the way to a time. -/
def stepsCalls (rig : Rig σ α) (target : Int) : Nat → Replay σ α → List (Int × Event α)
  | 0, _ => []
  | n + 1, r =>
    if r.halt.isSome then []
    else (r.wait rig).stepCalls rig target ++
      match (r.wait rig).step rig target with
      | (true, _) => []
      | (false, r) => stepsCalls rig target n r

/-- The calls made for the fixes after the first one. -/
def driveOnCalls (rig : Rig σ α) (r : Replay σ α) : List (Fix α) → List (Int × Event α)
  | [] => []
  | fix :: fixes =>
    let advanced := r.advance rig fix.time
    let driven := advanced.handle rig (.fix fix)
    r.stepsCalls rig fix.time patience ++ (advanced.call (.fix fix) ++
      if driven.isOver then [] else driven.driveOnCalls rig fixes)

/-- The calls made in driving, in order. -/
def driveCalls (rig : Rig σ α) (r : Replay σ α) : List (Fix α) → List (Int × Event α)
  | [] => []
  | first :: fixes =>
    if r.halt.isSome then []
    else
      let started := { r with clock := first.time }
      let located := started.handle rig (.fix first)
      started.call (.fix first) ++ (located.call .begin ++
        (located.handle rig .begin).driveOnCalls rig fixes)

/-- The replays there are: an area is shown, and fixes are replayed, any number of times. -/
inductive Arises (rig : Rig σ α) : Replay σ α → Prop
  | start (host : σ) : Arises rig (start host)
  | load {r : Replay σ α} (h : Arises rig r) (area : Area α) : Arises rig (r.load rig area)
  | drive {r : Replay σ α} (h : Arises rig r) (fixes : List (Fix α)) :
    Arises rig (r.drive rig fixes)

variable {rig : Rig σ α} {r : Replay σ α}

/-- The navigator takes in an event, unless the replay has halted. -/
theorem handled (hgoes : r.halt = none) (rig : Rig σ α) (event : Event α) :
    (r.handle rig event).navigator = (r.navigator.handle rig.config r.clock event).2
      ∧ (r.handle rig event).clock = r.clock
      ∧ ((∀ e ∈ r.queue, e.fix? = none) → ∀ e ∈ (r.handle rig event).queue, e.fix? = none) := by
  rcases handle_cases hgoes rig event with
    ⟨effects, n, hcall, -, heq⟩ | ⟨reason, n, hcall, heq⟩ <;> rw [heq]
  · have hstays := stays_dispatches rig effects { r with navigator := n }
    rw [hcall]
    exact ⟨hstays.navigator, hstays.clock, hstays.forall_queue fun _ => Event.IsReply.fix?_eq_none⟩
  · have hnavigator : (r.navigator.handle rig.config r.clock event).2 = n :=
      hcall.elim (fun hrefused => by rw [hrefused]) fun htrapped => htrapped.2.2
    exact ⟨hnavigator.symm, rfl, id⟩

/-- A replay that goes on has not been refused anything. -/
theorem isOk_of_goes {event : Event α} (hgoes : (r.handle rig event).halt = none) :
    ∃ effects n, r.navigator.handle rig.config r.clock event = (.ok effects, n)
      ∧ (r.handle rig event).navigator = n := by
  obtain ⟨effects, n, hcall, -, -⟩ := ok_of_handle hgoes
  refine ⟨effects, n, hcall, ?_⟩
  rw [(handled (halt_of_handle hgoes) rig event).1, hcall]

/-- A replay that goes on has not overflowed, unless that goes unnoticed. -/
theorem not_overflows_of_goes {event : Event α} (hgoes : (r.handle rig event).halt = none)
    (hrange : Scalar.checked α = false → ¬ r.navigator.Overflows rig.config r.clock event) :
    ¬ r.navigator.Overflows rig.config r.clock event := by
  obtain ⟨-, -, -, hfits, -⟩ := ok_of_handle hgoes
  cases hchecked : Scalar.checked α with
  | false => exact hrange hchecked
  | true => exact hfits hchecked

omit [Scalar α] [Geodesy α] in
theorem call_of_goes (hgoes : r.halt = none) (event : Event α) :
    r.call event = [(r.clock, event)] :=
  if_neg (by simp [hgoes])

omit [Scalar α] [Geodesy α] in
theorem call_of_halt (hhalt : r.halt ≠ none) (event : Event α) : r.call event = [] :=
  if_pos (Option.ne_none_iff_isSome.1 hhalt)

omit [Scalar α] [Geodesy α] in
theorem isOver_of_halt (hhalt : r.halt ≠ none) : r.isOver = true := by
  unfold isOver
  rw [Option.ne_none_iff_isSome.1 hhalt]
  rfl

theorem handle_clock (rig : Rig σ α) (r : Replay σ α) (event : Event α) :
    (r.handle rig event).clock = r.clock := by
  by_cases hgoes : r.halt = none
  · exact (handled hgoes rig event).2.1
  · rw [handle_of_halt hgoes]

/-- What a step can be, with the call that is made in it. -/
theorem step_cases (rig : Rig σ α) (target : Int) (r : Replay σ α) :
    (¬ canWait rig (max ((r.deadlineBy? target).getD target) r.clock - r.clock)
        ∧ r.step rig target = (true, r.haltWith .pause) ∧ r.stepCalls rig target = [])
      ∨ (∃ event events, r.queue = event :: events
        ∧ r.step rig target = (false, { r with queue := events }.handle rig event)
        ∧ r.stepCalls rig target = r.call event)
      ∨ (∃ due, r.queue = [] ∧ r.deadlineBy? target = some due
        ∧ r.step rig target = (false, { r with clock := max due r.clock }.handle rig .tick)
        ∧ r.stepCalls rig target = { r with clock := max due r.clock }.call .tick)
      ∨ (r.queue = [] ∧ r.deadlineBy? target = none
        ∧ r.step rig target = (true, { r with clock := max target r.clock })
        ∧ r.stepCalls rig target = []) := by
  unfold step stepCalls
  dsimp only
  by_cases hpause : canWait rig (max ((r.deadlineBy? target).getD target) r.clock - r.clock)
  · rw [if_neg (not_not.2 hpause), if_neg (not_not.2 hpause)]
    rcases r.queue with _ | ⟨event, events⟩
    · rcases r.deadlineBy? target with _ | due
      · exact .inr (.inr (.inr ⟨rfl, rfl, rfl, rfl⟩))
      · exact .inr (.inr (.inl ⟨due, rfl, rfl, rfl, rfl⟩))
    · exact .inr (.inl ⟨event, events, rfl, rfl, rfl⟩)
  · rw [if_pos hpause, if_pos hpause]
    exact .inl ⟨hpause, rfl, rfl⟩

omit [Scalar α] [Geodesy α] in
/-- The first deadline up to a time is the first one of all. -/
theorem of_deadlineBy?_eq_some {target due : Int} (h : r.deadlineBy? target = some due) :
    due ≤ target ∧ r.navigator.timers.next? = some due
      ∧ ∃ t ∈ r.navigator.timers.toList, t.due = due := by
  obtain ⟨hnext, hle⟩ := Option.filter_eq_some_iff.1 h
  obtain ⟨t, hhead, hdue⟩ := Option.map_eq_some_iff.1 hnext
  exact ⟨of_decide_eq_true hle, hnext, t, List.mem_of_head? hhead, hdue⟩

omit [Scalar α] [Geodesy α] in
/-- Without a deadline up to a time all of them are later. -/
theorem of_deadlineBy?_eq_none (hvalid : r.navigator.timers.Valid) {target : Int}
    (h : r.deadlineBy? target = none) : ∀ t ∈ r.navigator.timers.toList, target < t.due := by
  unfold deadlineBy? Navigator.nextDeadline? at h
  intro t ht
  rcases hnext : r.navigator.timers.next? with _ | due
  · exact absurd ht (Timers.mem_of_next?_eq_none hnext t)
  · have hlate : target < due := by simpa [hnext] using h
    exact hlate.trans_le (hvalid.isFrom_next hnext t ht)

/-- No deadline is passed before a call, unless an overflow has gone unnoticed, and at a fix all
that was due by its time is done. The clock then is at the time of the fix, or where it was when
that is past. -/
structure IsTimely (config : Config α) (n₀ : Navigator α) (before : List (Int × Event α))
    (call : Int × Event α) : Prop where
  deadlines : n₀.Heeds config before → (n₀.run config before).timers.IsFrom call.1
  done : ∀ fix, call.2 = .fix fix →
    ∀ t ∈ (n₀.run config before).timers.toList, fix.time < t.due
  clock : ∀ fix, call.2 = .fix fix → call.1 = match before.getLast? with
    | none => fix.time
    | some last => max fix.time last.1

/-- Some calls have led from a navigator to the replay, with some fixes, all of them in time. The
last one was not before a certain time. -/
structure IsOnCourse (rig : Rig σ α) (n₀ : Navigator α) (seen : List (Fix α)) (since : Int)
    (calls : List (Int × Event α)) (r : Replay σ α) : Prop where
  navigator : r.navigator = n₀.run rig.config calls
  queue : ∀ e ∈ r.queue, e.fix? = none
  deadlines : n₀.Heeds rig.config calls → r.halt = none → r.navigator.timers.IsFrom r.clock
  seen : calls.filterMap (·.2.fix?) = seen
  past : ∀ call ∈ calls, call.1 ≤ r.clock
  last : ∀ last, calls.getLast? = some last → since ≤ last.1
  ordered : (calls.map (·.1)).Pairwise (· ≤ ·)
  timely : ∀ before call after, calls = before ++ call :: after →
    IsTimely rig.config n₀ before call

namespace IsOnCourse

variable {n₀ : Navigator α} {seen : List (Fix α)} {since : Int} {calls : List (Int × Event α)}

theorem start (hqueue : ∀ e ∈ r.queue, e.fix? = none)
    (hdeadlines : r.navigator.timers.IsFrom r.clock) (since : Int) :
    IsOnCourse rig r.navigator [] since [] r :=
  ⟨rfl, hqueue, fun _ _ => hdeadlines, rfl, by simp, by simp, .nil, by simp⟩

theorem stays (h : IsOnCourse rig n₀ seen since calls r) {r' : Replay σ α} (hstays : r.Stays r') :
    IsOnCourse rig n₀ seen since calls r' where
  navigator := hstays.navigator.trans h.navigator
  queue := hstays.forall_queue (fun _ => Event.IsReply.fix?_eq_none) h.queue
  deadlines := by
    rw [hstays.navigator, hstays.clock, hstays.halt]
    exact h.deadlines
  seen := h.seen
  past := by
    rw [hstays.clock]
    exact h.past
  last := h.last
  ordered := h.ordered
  timely := h.timely

/-- The clock moves on up to the first deadline. -/
theorem moveTo (h : IsOnCourse rig n₀ seen since calls r) {next : Int} (hle : r.clock ≤ next)
    (hdeadlines : ∀ t ∈ r.navigator.timers.toList, r.clock ≤ t.due → next ≤ t.due) :
    IsOnCourse rig n₀ seen since calls { r with clock := next } :=
  { h with
    deadlines := fun hheeds hgoes t ht => hdeadlines t ht (h.deadlines hheeds hgoes t ht)
    past := fun call hcall => (h.past call hcall).trans hle }

/-- Nothing is said any more of the deadlines of a replay that has halted. -/
theorem haltWith (h : IsOnCourse rig n₀ seen since calls r) (halt : Halt α) :
    IsOnCourse rig n₀ seen since calls (r.haltWith halt) :=
  { h with deadlines := fun _ hgoes => nomatch hgoes }

theorem handle_of_goes (hconfig : rig.config.IsPatient)
    (h : IsOnCourse rig n₀ seen since calls r) (hgoes : r.halt = none) {event : Event α}
    (htimely : IsTimely rig.config n₀ calls (r.clock, event)) :
    IsOnCourse rig n₀ (seen ++ event.fix?.toList) r.clock (calls ++ [(r.clock, event)])
      (r.handle rig event) := by
  obtain ⟨hnavigator, hclock, hqueue⟩ := handled hgoes rig event
  refine ⟨?_, hqueue h.queue, ?_, ?_, ?_, ?_, ?_, ?_⟩
  · rw [hnavigator, h.navigator, Navigator.run, Navigator.run, List.foldl_append]
    rfl
  · intro hheeds hgone
    rw [hnavigator, hclock]
    refine Navigator.isFrom_handle hconfig (not_overflows_of_goes hgone fun hchecked => ?_)
    rw [h.navigator]
    exact (Navigator.isInRange_append.1 (hheeds hchecked)).2.1
  · rw [List.filterMap_append, h.seen]
    rcases hfix : event.fix? with _ | fix <;> simp [hfix]
  · rw [hclock]
    exact List.forall_mem_append.2 ⟨h.past, List.forall_mem_singleton.2 le_rfl⟩
  · intro last hlast
    rw [List.getLast?_concat] at hlast
    cases hlast
    exact le_rfl
  · rw [List.map_append]
    refine List.pairwise_append.2 ⟨h.ordered, List.pairwise_singleton .., fun a ha b hb => ?_⟩
    obtain ⟨call, hcall, rfl⟩ := List.mem_map.1 ha
    obtain rfl := List.mem_singleton.1 hb
    exact h.past call hcall
  · intro before call after heq
    rcases List.eq_nil_or_concat' after with rfl | ⟨rest, last, rfl⟩
    · obtain ⟨rfl, hcall⟩ := List.append_inj' heq rfl
      cases hcall
      exact htimely
    · rw [← List.cons_append, ← List.append_assoc] at heq
      exact h.timely before call rest (List.append_inj' heq rfl).1

/-- An event that is no fix is handled in time whenever it comes. -/
theorem handle (hconfig : rig.config.IsPatient) (h : IsOnCourse rig n₀ seen since calls r)
    (hsince : since ≤ r.clock) {event : Event α} (hevent : event.fix? = none) :
    IsOnCourse rig n₀ seen since (calls ++ r.call event) (r.handle rig event) := by
  by_cases hgoes : r.halt = none
  · have hno : ∀ fix, event ≠ .fix fix := by
      rintro fix rfl
      cases hevent
    have hdeadlines : n₀.Heeds rig.config calls →
        (n₀.run rig.config calls).timers.IsFrom r.clock :=
      fun hheeds => h.navigator ▸ h.deadlines hheeds hgoes
    have hhandled := h.handle_of_goes hconfig hgoes
      ⟨hdeadlines, fun fix hfix => absurd hfix (hno fix), fun fix hfix => absurd hfix (hno fix)⟩
    rw [hevent, Option.toList_none, List.append_nil] at hhandled
    rw [call_of_goes hgoes]
    exact { hhandled with last := fun last hlast => hsince.trans (hhandled.last last hlast) }
  · rw [handle_of_halt hgoes, call_of_halt hgoes, List.append_nil]
    exact h

/-- The clock stops at the first deadline, and stays where it is while the queue is emptied. At the
end of the way nothing is due any more by the time that was aimed at. -/
theorem step (hconfig : rig.config.IsPatient) (hreach : Navigator.Reachable rig.config n₀)
    (h : IsOnCourse rig n₀ seen since calls r) (hsince : since ≤ r.clock) (target : Int) :
    IsOnCourse rig n₀ seen since (calls ++ r.stepCalls rig target) (r.step rig target).2
      ∧ since ≤ (r.step rig target).2.clock
      ∧ ((r.step rig target).1 = true → (r.step rig target).2.halt = none →
        (∀ t ∈ (r.step rig target).2.navigator.timers.toList, target < t.due)
          ∧ (r.step rig target).2.clock = max target r.clock)
      ∧ ((r.step rig target).1 = false →
        max target (r.step rig target).2.clock = max target r.clock) := by
  have hvalid : r.navigator.timers.Valid := by
    rw [h.navigator]
    exact (hreach.run calls).aligned.valid
  rcases step_cases rig target r with ⟨-, hstep, hcalls⟩ | ⟨event, events, hqueue, hstep, hcalls⟩
    | ⟨due, -, hdeadline, hstep, hcalls⟩ | ⟨-, hnone, hstep, hcalls⟩ <;> rw [hstep, hcalls]
  · have hhalted : (r.haltWith .pause).halt ≠ none := nofun
    rw [List.append_nil]
    exact ⟨h.haltWith .pause, hsince, fun _ hgoes => absurd hgoes hhalted, nofun⟩
  · have hfixes := h.queue
    rw [hqueue, List.forall_mem_cons] at hfixes
    have hpopped : IsOnCourse rig n₀ seen since calls { r with queue := events } :=
      { h with queue := hfixes.2 }
    have hclock := handle_clock rig { r with queue := events } event
    refine ⟨hpopped.handle hconfig hsince hfixes.1, ?_, nofun, fun _ => ?_⟩
    · exact hsince.trans_eq hclock.symm
    · exact congrArg (max target) hclock
  · obtain ⟨htarget, hnext, -⟩ := of_deadlineBy?_eq_some hdeadline
    have hmoved := h.moveTo (le_max_right due r.clock)
      fun t ht => max_le (hvalid.isFrom_next hnext t ht)
    have hlater := hsince.trans (le_max_right due r.clock)
    have htick : (Event.tick : Event α).fix? = none := rfl
    have hclock := handle_clock rig { r with clock := max due r.clock } .tick
    refine ⟨hmoved.handle hconfig hlater htick, hlater.trans_eq hclock.symm, nofun, fun _ => ?_⟩
    rw [hclock, ← max_assoc, max_eq_left htarget]
  · have hlate := of_deadlineBy?_eq_none hvalid hnone
    have hmoved := h.moveTo (le_max_right target r.clock) fun t ht => max_le (hlate t ht).le
    rw [List.append_nil]
    exact ⟨hmoved, hsince.trans (le_max_right _ _), fun _ _ => ⟨hlate, rfl⟩, nofun⟩

theorem steps (hconfig : rig.config.IsPatient) (hreach : Navigator.Reachable rig.config n₀)
    (target : Int) : ∀ (k : Nat) {calls : List (Int × Event α)} {r : Replay σ α},
      IsOnCourse rig n₀ seen since calls r → since ≤ r.clock →
        IsOnCourse rig n₀ seen since (calls ++ r.stepsCalls rig target k) (r.steps rig target k)
          ∧ ((r.steps rig target k).halt = none →
            (∀ t ∈ (r.steps rig target k).navigator.timers.toList, target < t.due)
              ∧ (r.steps rig target k).clock = max target r.clock)
  | 0, calls, r, h, _ => by
    have hhalted : (r.haltWith .endless).halt ≠ none := nofun
    rw [stepsCalls, Replay.steps, List.append_nil]
    exact ⟨h.haltWith .endless, fun hgoes => absurd hgoes hhalted⟩
  | k + 1, calls, r, h, hsince => by
    unfold stepsCalls Replay.steps
    by_cases hhalt : r.halt = none
    · rw [if_neg (by simp [hhalt]), if_neg (by simp [hhalt])]
      have hwaits := stays_wait rig r
      have hclock : (r.wait rig).clock = r.clock := hwaits.clock
      obtain ⟨hstepped, hsince', hlast, hon⟩ :=
        (h.stays hwaits).step hconfig hreach (hsince.trans_eq hclock.symm) target
      rcases hstep : (r.wait rig).step rig target with ⟨_ | _, r'⟩ <;>
        rw [hstep, hclock] at hlast hon <;> rw [hstep] at hstepped hsince' <;> dsimp only
      · rw [← List.append_assoc, ← hon rfl]
        exact steps hconfig hreach target k hstepped hsince'
      · rw [List.append_nil]
        exact ⟨hstepped, hlast rfl⟩
    · have hhalted : r.halt.isSome = true := Option.ne_none_iff_isSome.1 hhalt
      rw [if_pos hhalted, if_pos hhalted, List.append_nil]
      exact ⟨h, fun hgoes => absurd hgoes hhalt⟩

/-- The last call was made since the fix before, and on the way to this one. -/
theorem isTimely_fix (h : IsOnCourse rig n₀ seen since calls r) (hgoes : r.halt = none)
    (hne : calls ≠ []) {fix : Fix α} (hdone : ∀ t ∈ r.navigator.timers.toList, fix.time < t.due)
    (hclock : r.clock = max fix.time since) :
    IsTimely rig.config n₀ calls (r.clock, .fix fix) := by
  rw [h.navigator] at hdone
  refine ⟨fun hheeds => h.navigator ▸ h.deadlines hheeds hgoes, ?_, ?_⟩
  · rintro _ ⟨⟩
    exact hdone
  · rintro _ ⟨⟩
    rcases hlast : calls.getLast? with _ | last
    · exact absurd (List.getLast?_eq_none_iff.1 hlast) hne
    · have hsince := h.last last hlast
      have hpast := h.past last (List.mem_of_getLast? hlast)
      show r.clock = max fix.time last.1
      omega

/-- On the way to a fix the clock goes to its time, or stays where it is when that is past. -/
theorem driveOn (hconfig : rig.config.IsPatient) (hreach : Navigator.Reachable rig.config n₀) :
    ∀ (fixes : List (Fix α)) {seen : List (Fix α)} {since : Int} {calls : List (Int × Event α)}
      {r : Replay σ α}, IsOnCourse rig n₀ seen since calls r → since = r.clock → calls ≠ [] →
        ∃ more since, more <+: fixes ∧ (more = fixes ∨ (r.driveOn rig fixes).isOver = true)
          ∧ IsOnCourse rig n₀ (seen ++ more) since (calls ++ r.driveOnCalls rig fixes)
            (r.driveOn rig fixes)
  | [], seen, _, calls, r, h, rfl, _ => by
    refine ⟨[], r.clock, List.prefix_rfl, .inl rfl, ?_⟩
    rw [driveOnCalls, List.append_nil, List.append_nil]
    exact h
  | fix :: fixes, seen, _, calls, r, h, rfl, hne => by
    obtain ⟨hadvanced, hthere⟩ := h.steps hconfig hreach fix.time patience le_rfl
    unfold driveOnCalls Replay.driveOn advance
    set advanced := r.steps rig fix.time patience
    dsimp only
    by_cases hgoes : advanced.halt = none
    · obtain ⟨hdone, hclock⟩ := hthere hgoes
      have htimely := hadvanced.isTimely_fix hgoes
        (fun hnil => hne (List.append_eq_nil_iff.1 hnil).1) hdone hclock
      have hdriven := hadvanced.handle_of_goes hconfig hgoes htimely
      rw [call_of_goes hgoes]
      by_cases hover : (advanced.handle rig (.fix fix)).isOver = true
      · rw [if_pos hover, if_pos hover, List.append_nil, ← List.append_assoc]
        exact ⟨[fix], advanced.clock, ⟨fixes, rfl⟩, .inr hover, hdriven⟩
      · rw [if_neg hover, if_neg hover, ← List.append_assoc, ← List.append_assoc]
        have hclock : (advanced.handle rig (.fix fix)).clock = advanced.clock :=
          handle_clock rig advanced (.fix fix)
        obtain ⟨more, since, hmore, hall, hrest⟩ :=
          driveOn hconfig hreach fixes hdriven hclock.symm (by simp)
        refine ⟨fix :: more, since, (List.prefix_cons_inj fix).2 hmore,
          hall.imp_left (congrArg (fix :: ·)), ?_⟩
        rwa [List.append_assoc] at hrest
    · have hover := isOver_of_halt hgoes
      rw [handle_of_halt hgoes, call_of_halt hgoes, if_pos hover, if_pos hover, List.append_nil,
        List.append_nil]
      exact ⟨[], r.clock, List.nil_prefix, .inr hover, by rwa [List.append_nil]⟩

/-- Where nothing is due the clock may be set to any time, so that of the first fix is taken. -/
theorem drive (hconfig : rig.config.IsPatient) (hreach : Navigator.Reachable rig.config r.navigator)
    (hqueue : ∀ e ∈ r.queue, e.fix? = none) (htimers : r.navigator.timers = .empty)
    (fixes : List (Fix α)) : ∃ seen since, seen <+: fixes
      ∧ (seen = fixes ∨ (r.drive rig fixes).isOver = true)
      ∧ IsOnCourse rig r.navigator seen since (r.driveCalls rig fixes) (r.drive rig fixes) := by
  have hempty : ∀ now, r.navigator.timers.IsFrom now := by
    rw [htimers]
    exact Timers.isFrom_empty
  have hidle : IsOnCourse rig r.navigator [] 0 [] r := .start hqueue (hempty _) 0
  unfold driveCalls Replay.drive
  rcases fixes with _ | ⟨first, fixes⟩
  · exact ⟨[], 0, List.prefix_rfl, .inl rfl, hidle⟩
  dsimp only
  by_cases hgoes : r.halt = none
  · rw [if_neg (by simp [hgoes]), if_neg (by simp [hgoes])]
    set started : Replay σ α := { r with clock := first.time }
    have hstart : IsOnCourse rig started.navigator [] first.time [] started :=
      .start (r := started) hqueue (hempty first.time) first.time
    have htimely : IsTimely rig.config started.navigator [] (started.clock, .fix first) := by
      refine ⟨fun _ => hempty _, fun _ _ t ht => ?_, ?_⟩
      · rw [show (started.navigator.run rig.config []).timers = .empty from htimers] at ht
        cases ht
      · rintro _ ⟨⟩
        rfl
    have hlocated := hstart.handle_of_goes hconfig hgoes htimely
    have hclock : (started.handle rig (.fix first)).clock = started.clock :=
      handle_clock rig started (.fix first)
    have hbegin : (Event.begin : Event α).fix? = none := rfl
    have hbegun := hlocated.handle hconfig hclock.ge hbegin
    have hbegunClock := (handle_clock rig (started.handle rig (.fix first)) .begin).trans hclock
    obtain ⟨more, since, hmore, hall, hdriven⟩ :=
      driveOn hconfig hreach fixes hbegun hbegunClock.symm (by simp)
    refine ⟨first :: more, since, (List.prefix_cons_inj first).2 hmore,
      hall.imp_left (congrArg (first :: ·)), ?_⟩
    rw [call_of_goes (r := started) hgoes, ← List.append_assoc]
    exact hdriven
  · rw [if_pos (Option.ne_none_iff_isSome.1 hgoes), if_pos (Option.ne_none_iff_isSome.1 hgoes)]
    exact ⟨[], 0, List.nil_prefix, .inr (isOver_of_halt hgoes), hidle⟩

end IsOnCourse

/-- Calls have led to the navigator, and none of the events in the queue is a fix. -/
structure IsGenuine (rig : Rig σ α) (r : Replay σ α) : Prop where
  navigator : Navigator.Reachable rig.config r.navigator
  queue : ∀ e ∈ r.queue, e.fix? = none

theorem IsGenuine.stays (h : r.IsGenuine rig) {r' : Replay σ α} (hstays : r.Stays r') :
    r'.IsGenuine rig := by
  refine ⟨?_, hstays.forall_queue (fun _ => Event.IsReply.fix?_eq_none) h.queue⟩
  rw [hstays.navigator]
  exact h.navigator

theorem IsGenuine.handle (h : r.IsGenuine rig) (event : Event α) :
    (r.handle rig event).IsGenuine rig := by
  by_cases hgoes : r.halt = none
  · obtain ⟨hnavigator, -, hqueue⟩ := handled hgoes rig event
    refine ⟨?_, hqueue h.queue⟩
    rw [hnavigator]
    exact h.navigator.handle r.clock event
  · rwa [handle_of_halt hgoes]

theorem isInvariant_isGenuine (rig : Rig σ α) : IsInvariant rig (IsGenuine rig) where
  wait h := h.stays (stays_wait rig _)
  clock _ h := ⟨h.navigator, h.queue⟩
  giveUp _ _ _ h := ⟨h.navigator, h.queue⟩
  pop {r event events} hqueue h := by
    have hfixes := h.queue
    rw [hqueue, List.forall_mem_cons] at hfixes
    have hpopped : ({ r with queue := events } : Replay σ α).IsGenuine rig :=
      ⟨h.navigator, hfixes.2⟩
    exact hpopped.handle event
  fix fix h := h.handle (.fix fix)
  begin h := h.handle .begin
  tick h := h.handle .tick

theorem Arises.isGenuine (h : Arises rig r) : r.IsGenuine rig := by
  induction h with
  | start host => exact ⟨.fresh, nofun⟩
  | load _ area ih =>
    exact (ih.handle (.view ⟨rig.follow, false⟩)).handle (.areaLoaded area rig.ranks)
  | drive _ fixes ih => exact (isInvariant_isGenuine rig).drive ih fixes

/-- Showing an area leaves nothing that is due, or the replay has halted. -/
theorem IsGenuine.timers_load (h : r.IsGenuine rig) (area : Area α)
    (hgoes : (r.load rig area).halt = none) :
    (r.load rig area).navigator.timers = .empty := by
  have hviewed := h.handle (.view ⟨rig.follow, false⟩)
  obtain ⟨shown, n, hload, hn⟩ := isOk_of_goes hgoes
  obtain ⟨route, -, rfl⟩ := hviewed.navigator.of_load hload
  exact congrArg (·.timers) hn

/-- On an area that has just been shown driving makes calls at times that never go back, and takes
the fixes in in order, all of them unless it is over before. A fix is taken in at its time, or at
that of the call before where that is later, and when all that was due by then is done. Whatever is
due is done by a call at the very time it is due, as long as no overflow has gone unnoticed. -/
theorem Arises.drives_on_time (h : Arises rig r) (hsettle : 0 ≤ rig.config.guidance.settleDelay)
    (hquiet : 0 ≤ rig.config.coverage.quiet) (area : Area α) (fixes : List (Fix α)) :
    ∃ n calls, n = (r.load rig area).navigator ∧ calls = (r.load rig area).driveCalls rig fixes
      ∧ n.run rig.config calls = ((r.load rig area).drive rig fixes).navigator
      ∧ calls.filterMap (·.2.fix?) <+: fixes
      ∧ (calls.filterMap (·.2.fix?) = fixes
        ∨ ((r.load rig area).drive rig fixes).isOver = true)
      ∧ (calls.map (·.1)).Pairwise (· ≤ ·)
      ∧ ∀ before now event after, calls = before ++ (now, event) :: after →
        (n.Heeds rig.config before → ∀ task ∈ ((n.run rig.config before).timers.popDue now).1,
            (n.run rig.config before).timers.deadline? task = some now)
          ∧ ∀ fix, event = .fix fix →
            (∀ t ∈ (n.run rig.config before).timers.toList, fix.time < t.due)
              ∧ now = match before.getLast? with
                | none => fix.time
                | some last => max fix.time last.1 := by
  refine ⟨_, _, rfl, rfl, ?_⟩
  have hgenuine := (h.load area).isGenuine
  by_cases hgoes : (r.load rig area).halt = none
  · obtain ⟨seen, since, hseen, hall, hon⟩ := IsOnCourse.drive ⟨hsettle, hquiet⟩ hgenuine.navigator
      hgenuine.queue (h.isGenuine.timers_load area hgoes) fixes
    refine ⟨hon.navigator.symm, by rwa [hon.seen], by rwa [hon.seen], hon.ordered, ?_⟩
    intro before now event after heq
    obtain ⟨hdeadlines, hdone, hclock⟩ := hon.timely before (now, event) after heq
    have hvalid := (hgenuine.navigator.run before).aligned.valid
    exact ⟨fun hheeds task htask => hvalid.deadline_of_due (hdeadlines hheeds) htask,
      fun fix hfix => ⟨hdone fix hfix, hclock fix hfix⟩⟩
  · have hidle : (r.load rig area).driveCalls rig fixes = []
        ∧ (r.load rig area).drive rig fixes = r.load rig area := by
      have hhalted := Option.ne_none_iff_isSome.1 hgoes
      rcases fixes with _ | ⟨first, fixes⟩
      · exact ⟨rfl, rfl⟩
      · exact ⟨if_pos hhalted, if_pos hhalted⟩
    rw [hidle.1, hidle.2]
    exact ⟨rfl, List.nil_prefix, .inr (isOver_of_halt hgoes), .nil, by simp⟩

end Replay

namespace Trial

/-- Everything is done as soon as it can be, and nothing is kept. -/
def prompt : Rig Unit ℚ where
  config := .standard
  speedup := 0
  autoResume := false
  follow := true
  schedule := .prompt
  directions _ := none
  persist _ _ := (true, ())
  rememberArea _ _ := ()
  display _ _ := ()

/-- To the start of the road and on along it, with times before 0, twice the same and going back. -/
def zigzag : List (Fix ℚ) :=
  [.ofPoint (place (-5)) (-700), .ofPoint (place 0) (-400), .ofPoint (place 0) (-400),
    .ofPoint (place 1) 1500, .ofPoint (place 1) 900, .ofPoint (place 3) 4000]

/-- To the start of the road. -/
def coming : List (Fix ℚ) :=
  [.ofPoint (place (-5)) 0, .ofPoint (place 0) 1, .ofPoint (place 0) 2]

/-- The driver settles at the start for as long as there are milliseconds. -/
def dawdling : Rig Unit ℚ :=
  { prompt with
    config := { prompt.config with
      guidance := { prompt.config.guidance with settleDelay := twoTo 63 - 1 } } }

end Trial

namespace Replay

/-- The settle delay is over at 1100, and the segments at the start are stored at 1600. -/
theorem drives_on_time_zigzag :
    ∃ calls, calls = ((start ()).load Trial.prompt (Trial.area "north")).driveCalls Trial.prompt
        Trial.zigzag
      ∧ calls.filterMap (·.2.fix?) <+: Trial.zigzag
      ∧ calls.map (·.1) = [-700, -700, -700, -400, -400, 1100, 1500, 1500, 1600, 1600, 4000] := by
  obtain ⟨n, calls, -, rfl, -, hfixes, -⟩ := Arises.drives_on_time (.start ())
    (by decide : 0 ≤ Trial.prompt.config.guidance.settleDelay)
    (by decide : 0 ≤ Trial.prompt.config.coverage.quiet) (Trial.area "north") Trial.zigzag
  refine ⟨_, rfl, hfixes, ?_⟩
  decide +kernel

attribute [local instance] Trial.wrapping

/-- Where the end of the settle delay overflows and times are not checked, the driver settles at
once, at another time than the one at which that is due. -/
theorem settles_early : 0 ≤ Trial.dawdling.config.guidance.settleDelay
    ∧ 0 ≤ Trial.dawdling.config.coverage.quiet
    ∧ ∃ n calls before call after,
      n = ((start ()).load Trial.dawdling (Trial.area "north")).navigator
      ∧ calls = ((start ()).load Trial.dawdling (Trial.area "north")).driveCalls Trial.dawdling
        Trial.coming
      ∧ calls = before ++ call :: after
      ∧ .settle ∈ ((n.run Trial.dawdling.config before).timers.popDue call.1).1
      ∧ (n.run Trial.dawdling.config before).timers.deadline? .settle ≠ some call.1 := by
  set calls := ((start ()).load Trial.dawdling (Trial.area "north")).driveCalls Trial.dawdling
    Trial.coming with hcalls
  have hfifth : (calls.drop 4).head?.map (·.1) = some 1 := by decide +kernel
  rcases hdrop : calls.drop 4 with _ | ⟨call, after⟩
  · simp [hdrop] at hfifth
  · rw [hdrop, List.head?_cons, Option.map_some, Option.some.injEq] at hfifth
    refine ⟨by decide, by decide, _, calls, calls.take 4, call, after, rfl, hcalls, ?_, ?_⟩
    · rw [← hdrop, List.take_append_drop]
    · rw [hfifth, hcalls]
      decide +kernel

end Replay

end Roadbook
