import Mathlib.Data.List.Basic
import Roadbook.Guidance.Reckoning
import Roadbook.Number.Binary
import Roadbook.Proofs.Guidance.NewArea

/-!
# Deadlines and the times reckoned with

Every deadline that a call sets is the time of the call and the delay of the task, as far as that is
kept, and the call reckons with that time (`Navigator.mem_timers_handle`). So as long as nothing
overflows a new deadline lies a whole delay after the call that set it
(`Navigator.due_of_not_overflows`). Numbers of 64 bits keep the times that they can hold
(`Scalar.fits_float`), and exact numbers keep every time (`Navigator.not_overflows_rat`).
-/

namespace Roadbook

variable {α : Type}

/-- How long after it is scheduled a task is due. -/
def Config.delay (config : Config α) : Task → Int
  | .settle => config.guidance.settleDelay
  | .flush _ => config.coverage.quiet

theorem Scalar.fits_float {time : Int} :
    Scalar.Fits Float time ↔ -twoTo 63 ≤ time ∧ time < twoTo 63 := by
  have hlow : (twoTo 64 : Int) / 2 = twoTo 63 := by decide
  have hhigh : ((twoTo 64 : Int) + 1) / 2 = twoTo 63 := by decide
  show time.bmod (twoTo 64) = time ↔ _
  rw [Int.bmod_eq_iff (by decide), hlow, hhigh, Int.sub_self]
  exact ⟨fun h => ⟨h.1, h.2.1⟩, fun h => ⟨h.1, h.2, Int.dvd_zero _⟩⟩

namespace Dispatch

variable [Scalar α] {config : Config α} {now : Int} {d : Dispatch α}

/-- On the way into a phase the settle delay begins, if that is where it belongs, and no other
deadline is set. -/
theorem mem_timers_transition {phase : Phase} {t : Timer}
    (ht : t ∈ (d.transition config now phase).timers.toList) : t ∈ d.timers.toList
      ∨ d.session.phase ≠ .atStart ∧ phase = .atStart
        ∧ t = ⟨Scalar.wrap α (now + config.guidance.settleDelay), .settle⟩ := by
  by_cases hne : d.session.phase = phase
  · rw [← hne, transition_self] at ht
    exact .inl ht
  rw [transition_of_ne hne] at ht
  have hentering : (d.entering phase).timers.toList ⊆ d.timers.toList := by
    unfold entering
    dsimp only
    split_ifs
    · exact fun u hu => (Timers.mem_cancel.1 hu).1
    · exact List.Subset.refl _
  rcases (d.entering phase).arrange_cases config now d.session.phase with
    ⟨_, _, _, -, heq⟩ | ⟨hstart, heq⟩ | ⟨-, s, -, heq⟩ <;> rw [heq] at ht
  · exact .inl (hentering ht)
  · rcases Timers.mem_schedule.1 ht with rfl | ⟨ht, -⟩
    · have hphase : phase = .atStart := hstart
      exact .inr ⟨fun hbefore => hne (hbefore.trans hphase.symm), hphase, rfl⟩
    · exact .inl (hentering ht)
  · exact .inl (hentering ht)

theorem timers_transition_subset {phase : Phase} (hphase : phase ≠ .atStart) (d : Dispatch α) :
    (d.transition config now phase).timers.toList ⊆ d.timers.toList :=
  fun _ ht => (mem_timers_transition ht).resolve_right fun h => hphase h.2.1

theorem mem_timers_moveOn {phase : Phase} {t : Timer}
    (ht : t ∈ (d.moveOn config now phase).timers.toList) : t ∈ d.timers.toList
      ∨ d.session.phase ≠ .atStart ∧ (d.moveOn config now phase).session.phase = .atStart
        ∧ t = ⟨Scalar.wrap α (now + config.guidance.settleDelay), .settle⟩ := by
  unfold moveOn at ht ⊢
  dsimp only at ht ⊢
  have hmoved : (d.transition config now phase).session.phase = phase := d.transition_phase phase
  -- of two changes of phase in a row the second one never leads to the start
  split_ifs at ht ⊢ with hback
  · refine (mem_timers_transition (timers_transition_subset (by simp) _ ht)).imp_right ?_
    rintro ⟨-, rfl, -⟩
    rw [hmoved] at hback
    cases hback.1
  · exact (mem_timers_transition ht).imp_right fun ⟨hbefore, hphase, heq⟩ =>
      ⟨hbefore, hmoved.trans hphase, heq⟩

variable [Geodesy α]

theorem timers_announce (d : Dispatch α) : (d.announce config).timers = d.timers := by
  rcases announce_cases config d with heq | ⟨a, heq⟩ <;> rw [heq]
  rfl

theorem phase_announce (d : Dispatch α) :
    (d.announce config).session.phase = d.session.phase := by
  rcases announce_cases config d with heq | ⟨a, heq⟩ <;> rw [heq]
  rfl

theorem timers_begin_subset (d : Dispatch α) :
    (d.begin config now).timers.toList ⊆ d.timers.toList := by
  unfold begin
  by_cases hphase : d.session.phase = .preview
  · rw [if_pos hphase]
    dsimp only
    rw [timers_announce]
    refine timers_transition_subset ?_ (d.withSession _)
    split_ifs <;> simp
  · rw [if_neg hphase]
    exact List.Subset.refl _

theorem timers_settle_subset (d : Dispatch α) :
    (d.settle config now).timers.toList ⊆ d.timers.toList := by
  unfold settle
  split_ifs
  · rw [timers_announce]
    exact timers_transition_subset (by simp) d
  · exact List.Subset.refl _

theorem timers_accept_subset (d : Dispatch α) :
    (d.accept config now).timers.toList ⊆ d.timers.toList := by
  unfold accept
  split
  · split_ifs
    · dsimp only
      rw [timers_announce]
      split <;> exact timers_transition_subset (by simp) (d.withSession _)
    · exact List.Subset.refl _
  · exact List.Subset.refl _

theorem timers_dismiss_subset (d : Dispatch α) :
    (d.dismiss config now).timers.toList ⊆ d.timers.toList := by
  unfold dismiss
  split_ifs
  · rw [timers_announce]
    exact timers_transition_subset (by simp) (d.withSession _)
  · exact List.Subset.refl _

theorem timers_loseSignal (d : Dispatch α) : (d.loseSignal config).timers = d.timers := by
  unfold loseSignal
  split_ifs
  · exact timers_announce _
  · rfl

theorem timers_checkSignal (d : Dispatch α) : (d.checkSignal config now).timers = d.timers := by
  rcases d.checkSignal_cases config now with heq | heq <;> rw [heq]
  exact d.timers_loseSignal

/-- Up to the change of phase a good fix leaves phase and deadlines as they are. -/
theorem advance_receive (config : Config α) (now : Int) (fix : Fix α) (d : Dispatch α) :
    ((d.receive now fix).advance config fix.point fix.time).2.timers = d.timers
      ∧ ((d.receive now fix).advance config fix.point fix.time).2.session.phase
        = d.session.phase := by
  have hreceived : (d.receive now fix).timers = d.timers := by
    unfold receive
    dsimp only
    split_ifs <;> rfl
  have hphase : (d.receive now fix).session.phase = d.session.phase := by
    rw [receive_session]
    rfl
  unfold advance
  dsimp only
  split_ifs
  · exact ⟨hreceived, (Session.Agrees.phase (track_agrees _ _ _)).trans hphase⟩
  · rcases askForStart_cases (d.receive now fix) fix.point with heq | ⟨_, -, heq⟩ <;> rw [heq] <;>
      exact ⟨hreceived, hphase⟩

/-- A good fix has the settle delay begin where it leads to the start. -/
theorem mem_timers_applyFix {fix : Fix α} {t : Timer}
    (ht : t ∈ (d.applyFix config now fix).timers.toList) : t ∈ d.timers.toList
      ∨ d.session.phase ≠ .atStart ∧ (d.applyFix config now fix).session.phase = .atStart
        ∧ t = ⟨Scalar.wrap α (now + config.guidance.settleDelay), .settle⟩ := by
  obtain ⟨htimers, hphase⟩ := advance_receive config now fix d
  rw [applyFix_eq] at ht ⊢
  dsimp only at ht ⊢
  rw [timers_announce] at ht
  rw [phase_announce]
  have hmoved := mem_timers_moveOn ht
  rwa [htimers, hphase] at hmoved

end Dispatch

namespace Outcome

variable [Scalar α] {config : Config α} {now : Int} {o o' o'' : Outcome α} {times : List Int}

/-- A deadline was there before, or it lies the delay of its task after a time, as far as that is
kept, and is among the times reckoned with. -/
def Sets (config : Config α) (now : Int) (times : List Int) (o o' : Outcome α) : Prop :=
  ∀ t ∈ o'.navigator.timers.toList, t ∈ o.navigator.timers.toList
    ∨ now + config.delay t.task ∈ times ∧ t.due = Scalar.wrap α (now + config.delay t.task)

theorem Sets.of_subset (h : o'.navigator.timers.toList ⊆ o.navigator.timers.toList) :
    o.Sets config now times o' := fun _ ht => .inl (h ht)

theorem Sets.refl (o : Outcome α) : o.Sets config now times o := .of_subset (List.Subset.refl _)

theorem Sets.mono (h : o.Sets config now times o') {more : List Int} (hsub : times ⊆ more) :
    o.Sets config now more o' := fun t ht => (h t ht).imp_right fun hnew => ⟨hsub hnew.1, hnew.2⟩

theorem Sets.trans (h : o.Sets config now times o') (h' : o'.Sets config now times o'') :
    o.Sets config now times o'' := fun t ht => (h' t ht).elim (h t) .inr

theorem sets_scheduleFlush (o : Outcome α) (area : String)
    (hmem : now + config.coverage.quiet ∈ times) :
    o.Sets config now times (o.scheduleFlush config now area) := by
  intro t ht
  rcases Timers.mem_schedule.1 ht with rfl | ⟨ht, -⟩
  · exact .inr ⟨hmem, rfl⟩
  · exact .inl ht

theorem sets_inSession {operation : Dispatch α → Dispatch α}
    (h : ∀ d, (operation d).timers.toList ⊆ d.timers.toList) (o : Outcome α) :
    o.Sets config now times (o.inSession operation) := by
  rcases hs : o.navigator.session with _ | s
  · rw [inSession_none hs]
    exact .refl o
  · rw [inSession_some hs]
    exact .of_subset (h (o.dispatch s))

theorem sets_onFlushed (o : Outcome α) (area : String) (success : Bool) :
    o.Sets config now (o.reckonedFlushed config now area success)
      (o.onFlushed config now area success) := by
  unfold onFlushed
  split
  · exact .refl o
  · rename_i t ht
    split_ifs with harea
    · exact .refl o
    · dsimp only
      split_ifs with hneeds
      · refine sets_scheduleFlush (o.withTracker _) area ?_
        simp only [Bool.and_eq_true, Bool.not_eq_true'] at hneeds
        simp [reckonedFlushed, ht, not_not.1 harea, hneeds]
      · exact .refl o

omit [Scalar α] in
theorem aim_navigator (o : Outcome α) (fix : Fix α) : (o.aim fix).navigator = o.navigator := by
  unfold aim
  split
  · split_ifs <;> rfl
  · rfl

theorem sets_unload (o : Outcome α) : o.Sets config now times (o.unload config now) := by
  refine .of_subset ?_
  rw [unload_navigator]
  exact List.nil_subset _

variable [Geodesy α]

theorem sets_runTask (o : Outcome α) : ∀ task,
    o.Sets config now (o.reckonedTask config now task) (o.runTask config now task)
  | .settle => sets_inSession Dispatch.timers_settle_subset o
  | .flush area => by
    show o.Sets config now _ (o.flush config now area)
    unfold flush
    split
    · exact .refl o
    · rename_i t ht
      split_ifs with harea hflight
      · exact .refl o
      · refine sets_scheduleFlush o area ?_
        simp [reckonedTask, ht, not_not.1 harea, hflight]
      · split <;> exact .refl o

theorem sets_runTasks : ∀ (tasks : List Task) (o : Outcome α),
    o.Sets config now (o.reckonedTasks config now tasks) (tasks.foldl (runTask config now) o)
  | [], o => .refl o
  | task :: tasks, o =>
    ((sets_runTask o task).mono (List.subset_append_left _ _)).trans
      ((sets_runTasks tasks _).mono (List.subset_append_right _ _))

/-- Where covering the ground of a fix comes to anything, the deadline for that is reckoned with. -/
theorem mem_reckonedCover {fix : Fix α} (h : o.cover config now fix = .ok o') :
    o' = o ∨ now + config.coverage.quiet ∈ o.reckonedCover config now fix := by
  unfold cover at h
  split at h
  · rename_i s t hs ht
    have hphase : o.navigator.phase = s.phase := by simp only [Navigator.phase, hs]
    split_ifs at h with hunderway
    · split at h
      · rename_i hits tracker hob
        by_cases hempty : hits.isEmpty = true
        · cases h
          have hob := Tracker.observation?_eq_some hob
          have hkeep : tracker = t := by
            rw [← Tracker.observe_of_isEmpty (t := t) (by rw [hob]; exact hempty), hob]
          exact .inl (by rw [promote_of_isEmpty hempty, hkeep, withTracker_tracker ht])
        · exact .inr (by simp [reckonedCover, ht, hphase, hunderway, hob, hempty])
      · cases h
    · cases h
      exact .inl rfl
  · cases h
    exact .inl rfl

theorem sets_cover {fix : Fix α} (h : o.cover config now fix = .ok o') :
    o.Sets config now (o.reckonedCover config now fix) o' := by
  rcases mem_reckonedCover h with rfl | hmem
  · exact .refl o'
  · rcases cover_cases h with rfl | ⟨t, hits, tracker, -, -, -, rfl⟩
    · exact .refl o'
    · exact sets_scheduleFlush (_ : Outcome α) _ hmem

theorem reckonedFix_of_good {fix : Fix α} {s : Session α} (hs : o.navigator.session = some s)
    (hgood : fix.check now config.guidance.maxAge config.guidance.maxAccuracy = none) :
    o.reckonedFix config now fix = (now - fix.time) :: (s.reckoned fix
      ++ ((o.inSession (·.applyFix config now fix)).reckonedStart config now s.phase
        ++ (o.inSession (·.applyFix config now fix)).reckonedCover config now fix)) := by
  have hvalid : fix.point.IsValid := by
    by_contra hinvalid
    simp [Fix.check, hinvalid] at hgood
  simp only [reckonedFix, hs, hgood, hvalid, not_true_eq_false, if_false]

theorem sets_applyFix (config : Config α) (now : Int) {s : Session α}
    (hs : o.navigator.session = some s) (fix : Fix α) :
    o.Sets config now ((o.inSession (·.applyFix config now fix)).reckonedStart config now s.phase)
      (o.inSession (·.applyFix config now fix)) := by
  rw [inSession_some hs]
  intro t ht
  refine (Dispatch.mem_timers_applyFix ht).imp_right fun ⟨hbefore, hphase, heq⟩ => ?_
  have hbegins : s.phase ≠ .atStart
      ∧ (o.withDispatch ((o.dispatch s).applyFix config now fix)).navigator.phase = .atStart :=
    ⟨hbefore, hphase⟩
  rw [heq, reckonedStart, if_pos hbegins]
  exact ⟨List.mem_singleton_self _, rfl⟩

theorem sets_onFix {fix : Fix α} (h : o.onFix config now fix = .ok o') :
    o.Sets config now (o.reckonedFix config now fix) o' := by
  unfold onFix at h
  split at h
  · cases h
    exact sets_inSession (fun d => by rw [d.timers_loseSignal]; exact List.Subset.refl _) o
  · rename_i hgood
    have hcovered := sets_cover h
    have haimed := (o.inSession (·.applyFix config now fix)).aim_navigator fix
    rcases hs : o.navigator.session with _ | s
    · rw [inSession_none hs] at h haimed
      have hidle : o' = o.aim fix := by
        simpa [cover, haimed, hs, eq_comm] using h
      rw [hidle]
      exact .of_subset (by rw [haimed]; exact List.Subset.refl _)
    · rw [reckonedFix_of_good hs hgood]
      have hmoved := sets_applyFix config now hs fix
      have hafter : (o.inSession (·.applyFix config now fix)).Sets config now
          ((o.inSession (·.applyFix config now fix)).reckonedCover config now fix) o' := by
        unfold Sets reckonedCover at hcovered ⊢
        rwa [haimed] at hcovered
      refine (hmoved.mono ?_).trans (hafter.mono ?_)
      · exact fun time hmem => List.mem_cons_of_mem _
          (List.mem_append_right _ (List.mem_append_left _ hmem))
      · exact fun time hmem => List.mem_cons_of_mem _
          (List.mem_append_right _ (List.mem_append_right _ hmem))

theorem sets_respond {event : Event α} (hok : Navigator.respond config now o event = .ok o') :
    o.Sets config now (o.reckonedEvent config now event) o' := by
  cases event with
  | areaLoaded area =>
    obtain ⟨route, smoother, rfl⟩ := respond_areaLoaded hok
    unfold replace
    dsimp only
    split_ifs
    · exact sets_unload o
    · exact .refl o
  | fix fix => exact sets_onFix hok
  | begin =>
    cases hok
    exact sets_inSession Dispatch.timers_begin_subset o
  | acceptOffer =>
    cases hok
    exact sets_inSession Dispatch.timers_accept_subset o
  | dismissOffer =>
    cases hok
    exact sets_inSession Dispatch.timers_dismiss_subset o
  | directions id found =>
    cases hok
    refine sets_inSession (fun d => ?_) o
    rcases d.resolve_cases id found with heq | ⟨r, -, -, -, heq⟩ <;> rw [heq] <;>
      exact List.Subset.refl _
  | flushed area success =>
    cases hok
    exact sets_onFlushed o area success
  | view view =>
    cases hok
    exact .refl o
  | tick =>
    cases hok
    exact sets_inSession (fun d => by rw [d.timers_checkSignal]; exact List.Subset.refl _) o
  | finish =>
    cases hok
    exact sets_unload o

end Outcome

namespace Navigator

variable [Scalar α] [Geodesy α] {config : Config α} {now : Int} {n : Navigator α} {event : Event α}

theorem sets_due (config : Config α) (now : Int) (n : Navigator α) {t : Timer}
    (ht : t ∈ (n.due config now).navigator.timers.toList) :
    (t ∈ n.timers.toList ∧ now < t.due) ∨ now + config.delay t.task ∈ n.reckonedDue config now
      ∧ t.due = Scalar.wrap α (now + config.delay t.task) :=
  (Outcome.sets_runTasks _ _ t ht).imp_left Timers.mem_popDue.1

/-- A deadline that a call leaves is still to come, or it was set by the call. -/
theorem mem_timers_handle {t : Timer} (ht : t ∈ (n.handle config now event).2.timers.toList) :
    (t ∈ n.timers.toList ∧ now < t.due)
      ∨ now + config.delay t.task ∈ n.reckoned config now event
        ∧ t.due = Scalar.wrap α (now + config.delay t.task) := by
  have hmore : n.reckonedDue config now ⊆ n.reckoned config now event :=
    List.subset_append_left _ _
  rcases n.handle_cases config now event with ⟨o, hok, heq⟩ | ⟨_, -, heq⟩ <;> rw [heq] at ht
  · rcases Outcome.sets_respond hok t ht with hold | ⟨hmem, hdue⟩
    · exact (sets_due config now n hold).imp_right fun ⟨hmem, hdue⟩ => ⟨hmore hmem, hdue⟩
    · exact .inr ⟨List.mem_append_right _ hmem, hdue⟩
  · exact (sets_due config now n ht).imp_right fun ⟨hmem, hdue⟩ => ⟨hmore hmem, hdue⟩

theorem fits_of_not_overflows (h : ¬ n.Overflows config now event) {time : Int}
    (hmem : time ∈ n.reckoned config now event) : Scalar.wrap α time = time := by
  by_contra hfits
  exact h ⟨time, hmem, hfits⟩

/-- Where nothing overflows, a deadline that a call sets lies the whole delay of its task later. -/
theorem due_of_not_overflows (h : ¬ n.Overflows config now event) {t : Timer}
    (ht : t ∈ (n.handle config now event).2.timers.toList) :
    (t ∈ n.timers.toList ∧ now < t.due) ∨ t.due = now + config.delay t.task :=
  (mem_timers_handle ht).imp_right fun ⟨hmem, hdue⟩ => hdue.trans (fits_of_not_overflows h hmem)

theorem not_overflows_vacant (config : Config α) (view : View) (now : Int) (event : Event α) :
    ¬ (vacant view : Navigator α).Overflows config now event := by
  have hnone : (vacant view : Navigator α).reckoned config now event = [] := by
    cases event <;> rfl
  rintro ⟨time, hmem, -⟩
  rw [hnone] at hmem
  cases hmem

/-- In none of some calls anything overflows. -/
def IsInRange (config : Config α) (n : Navigator α) : List (Int × Event α) → Prop
  | [] => True
  | (now, event) :: calls =>
    ¬ n.Overflows config now event ∧ (n.handle config now event).2.IsInRange config calls

instance decidableIsInRange (config : Config α) :
    ∀ (n : Navigator α) (calls : List (Int × Event α)), Decidable (n.IsInRange config calls)
  | _, [] => isTrue trivial
  | n, (now, event) :: calls =>
    have := decidableIsInRange config (n.handle config now event).2 calls
    inferInstanceAs (Decidable (_ ∧ _))

theorem isInRange_append {more : List (Int × Event α)} : ∀ {calls : List (Int × Event α)}
    {n : Navigator α}, n.IsInRange config (calls ++ more)
      ↔ n.IsInRange config calls ∧ (n.run config calls).IsInRange config more
  | [], _ => ⟨fun h => ⟨trivial, h⟩, And.right⟩
  | (now, event) :: calls, n => by
    rw [List.cons_append, IsInRange, IsInRange, isInRange_append, run_cons, and_assoc]

/-- No overflow in some calls goes unnoticed. -/
def Heeds (config : Config α) (n : Navigator α) (calls : List (Int × Event α)) : Prop :=
  Scalar.checked α = false → n.IsInRange config calls

theorem not_overflows_rat (config : Config ℚ) (n : Navigator ℚ) (now : Int) (event : Event ℚ) :
    ¬ n.Overflows config now event := fun ⟨_, _, hfits⟩ => hfits rfl

theorem isInRange_rat (config : Config ℚ) : ∀ (calls : List (Int × Event ℚ)) (n : Navigator ℚ),
    n.IsInRange config calls
  | [], _ => trivial
  | (now, event) :: calls, n =>
    ⟨not_overflows_rat config n now event, isInRange_rat config calls _⟩

end Navigator

namespace Trial

/-- Exact numbers, and times of 64 bits that are not checked. -/
@[reducible] def wrapping : Scalar ℚ :=
  { Scalar.exact ℚ with
    wrap := fun time => time.bmod (twoTo 64)
    checked := false }

end Trial

end Roadbook
