import Roadbook.Proofs.Guidance.NewArea

/-!
# The order in which tracks are listed

The map of a tracker lists its tracks in an order of its own, and where sums round, the length of
what is tracked hangs on it. Nothing else does. Navigators that differ in that order alone
(`Navigator.Relists`) answer alike but for the percentages that are told (`Navigator.Relists.log`),
and those too are the same where sums do not hang on an order (`Scalar.IsOrderless`). So an area
that is loaded knows nothing of what was before it (`Navigator.Reachable.load_forgets`).
-/

namespace Roadbook

variable {α : Type}

/-- A sum of numbers does not hang on their order. -/
def Scalar.IsOrderless (α : Type) [Scalar α] : Prop :=
  ∀ {as bs : List α}, as.Perm bs → Scalar.sum as = Scalar.sum bs

theorem Scalar.isOrderless_rat : Scalar.IsOrderless ℚ := fun hperm => by
  rw [Scalar.exact_sum, Scalar.exact_sum, hperm.sum_eq]

/-- The same tracker, but for the order in which its tracks are listed. -/
def Tracker.Relists (t t' : Tracker α) : Prop :=
  (t.tracks.map (·.1)).Nodup ∧ ∃ tracks, tracks.Perm t.tracks ∧ t' = { t with tracks := tracks }

/-- The same navigator, but for the order in which the tracks of its area are listed. -/
def Navigator.Relists (n n' : Navigator α) : Prop :=
  ∃ tracker, Option.Rel Tracker.Relists n.tracker tracker ∧ n' = { n with tracker := tracker }

/-- The same event, but for the order in which the tracks of an area will be listed. -/
inductive Event.Relists : Event α → Event α → Prop
  | areaLoaded (area : Area α) (ranks ranks' : Nat → Nat) :
    Relists (.areaLoaded area ranks) (.areaLoaded area ranks')
  | refl (event : Event α) : Relists event event

/-- The same call, but for the order in which the tracks of an area will be listed. -/
def Event.RelistsAt (call call' : Int × Event α) : Prop :=
  call.1 = call'.1 ∧ call.2.Relists call'.2

namespace Tracker

theorem relists_ofArea (area : Area α) (ranks ranks' : Nat → Nat) :
    (ofArea area ranks).Relists (ofArea area ranks') :=
  ⟨nodup_keys_ofArea area ranks, (ofArea area ranks').tracks,
    (tracks_ofArea_perm area ranks').trans (tracks_ofArea_perm area ranks).symm, rfl⟩

variable {t t' : Tracker α}

theorem Relists.area (h : t.Relists t') : t'.area = t.area := by
  obtain ⟨-, tracks, -, rfl⟩ := h
  rfl

theorem Relists.inFlight (h : t.Relists t') : t'.inFlight = t.inFlight := by
  obtain ⟨-, tracks, -, rfl⟩ := h
  rfl

theorem Relists.pending (h : t.Relists t') : t'.pending = t.pending := by
  obtain ⟨-, tracks, -, rfl⟩ := h
  rfl

theorem Relists.track? (h : t.Relists t') (id : Nat) : t'.track? id = t.track? id := by
  obtain ⟨hnodup, tracks, hperm, rfl⟩ := h
  exact track?_of_perm hnodup hperm id

theorem Relists.beginFlush (h : t.Relists t') :
    t'.beginFlush.1 = t.beginFlush.1 ∧ t.beginFlush.2.Relists t'.beginFlush.2 := by
  obtain ⟨hnodup, tracks, hperm, rfl⟩ := h
  unfold Tracker.beginFlush
  dsimp only
  split_ifs
  · exact ⟨rfl, hnodup, tracks, hperm, rfl⟩
  · exact ⟨rfl, hnodup, tracks, hperm, rfl⟩

theorem Relists.completeFlush (h : t.Relists t') (success : Bool) :
    (t.completeFlush success).2.Relists (t'.completeFlush success).2 := by
  obtain ⟨hnodup, tracks, hperm, rfl⟩ := h
  unfold Tracker.completeFlush
  dsimp only
  split
  · exact ⟨hnodup, tracks, hperm, rfl⟩
  · split_ifs
    · exact ⟨hnodup, tracks, hperm, rfl⟩
    · exact ⟨hnodup, tracks, hperm, rfl⟩

theorem Relists.drain (h : t.Relists t') : t'.drain.1 = t.drain.1 := by
  obtain ⟨-, tracks, -, rfl⟩ := h
  have hsame : ({ t with tracks := tracks } : Tracker α).unconfirmed = t.unconfirmed := rfl
  unfold Tracker.drain
  dsimp only
  rw [hsame]
  split_ifs
  · rfl
  · rfl

section Measuring

variable [Scalar α] [Geodesy α]

theorem Relists.touched (h : t.Relists t') (rules : Config.Coverage α) (p : Point α) :
    t'.touched rules p = t.touched rules p := by
  have htracks : t'.track? = t.track? := funext h.track?
  obtain ⟨-, tracks, -, rfl⟩ := h
  unfold Tracker.touched
  rw [htracks]

/-- Of two trackers that differ in order the same segments are made driven. -/
theorem Relists.observation? (h : t.Relists t') (rules : Config.Coverage α) (p : Point α) :
    (t.observation? rules p = none ∧ t'.observation? rules p = none)
      ∨ ∃ hits u u', t.observation? rules p = some (hits, u)
        ∧ t'.observation? rules p = some (hits, u') ∧ u.Relists u' := by
  have htracks : t'.track? = t.track? := funext h.track?
  have hmeasurable : t'.isMeasurable = t.isMeasurable := by
    unfold Tracker.isMeasurable
    rw [htracks]
    obtain ⟨-, tracks, -, rfl⟩ := h
    rfl
  have hobserve : t'.observe rules p = ((t.observe rules p).1, (t'.observe rules p).2)
      ∧ (t.observe rules p).2.Relists (t'.observe rules p).2 := by
    have htouched := h.touched rules p
    obtain ⟨hnodup, tracks, hperm, rfl⟩ := h
    unfold Tracker.observe
    rw [htouched]
    exact ⟨rfl, hnodup, tracks, hperm, rfl⟩
  unfold Tracker.observation?
  rw [hmeasurable]
  split_ifs
  · exact .inr ⟨_, _, _, rfl, congrArg some hobserve.1, hobserve.2⟩
  · exact .inl ⟨rfl, rfl⟩

end Measuring

theorem Relists.percent [Scalar α] (hsum : Scalar.IsOrderless α) (h : t.Relists t') :
    t'.percent = t.percent := by
  have htracks : t'.track? = t.track? := funext h.track?
  obtain ⟨-, tracks, hperm, rfl⟩ := h
  have hlength : Tracker.length { t with tracks := tracks } = t.length := hsum (hperm.map _)
  unfold Tracker.percent Tracker.drivenLength
  rw [hlength, htracks]

end Tracker

/-- The same effect, but for the order in which the lengths of a percentage were summed. -/
inductive Effect.Recounts [Scalar α] : Effect α → Effect α → Prop
  | refl (e : Effect α) : Recounts e e
  | percent {t t' : Tracker α} (h : t.Relists t') (area : String) (ids : List Nat) :
    Recounts (.segmentsDriven area ids t.percent) (.segmentsDriven area ids t'.percent)

theorem Effect.Recounts.eq [Scalar α] (hsum : Scalar.IsOrderless α) {e e' : Effect α}
    (h : e.Recounts e') : e = e' := by
  cases h with
  | refl => rfl
  | percent h => rw [h.percent hsum]

/-- Both calls are refused, for one reason, or neither is and what they come to agrees. -/
inductive Refusal.Agree {β : Type} (R : β → β → Prop) :
    Except (Refusal α) β → Except (Refusal α) β → Prop
  | refused (reason : Refusal α) : Agree R (.error reason) (.error reason)
  | done {b b' : β} (h : R b b') : Agree R (.ok b) (.ok b')

/-- The same answer, but for the order in which tracks are listed. -/
structure Answer.Recounts [Scalar α] (a a' : Answer α) : Prop where
  now : a'.now = a.now
  event : a.event.Relists a'.event
  result : Refusal.Agree (List.Forall₂ Effect.Recounts) a.result a'.result
  navigator : a.navigator.Relists a'.navigator

theorem Answer.Recounts.result_eq [Scalar α] (hsum : Scalar.IsOrderless α) {a a' : Answer α}
    (h : a.Recounts a') : a.result = a'.result := by
  have hagree := h.result
  generalize a.result = r at hagree ⊢
  generalize a'.result = r' at hagree ⊢
  cases hagree with
  | refused reason => rfl
  | @done effects effects' heffects =>
    have hsame : List.Forall₂ (· = ·) effects effects' := heffects.imp fun _ _ h => h.eq hsum
    rw [List.forall₂_eq_eq_eq] at hsame
    rw [hsame]

namespace Outcome

/-- The same outcome, but for the order in which the tracks of the area are listed. -/
def Relists (o o' : Outcome α) : Prop :=
  ∃ tracker, Option.Rel Tracker.Relists o.navigator.tracker tracker ∧ o' = o.withTracker tracker

variable {o o' : Outcome α}

theorem Relists.inSession (h : o.Relists o') (operation : Dispatch α → Dispatch α) :
    (o.inSession operation).Relists (o'.inSession operation) := by
  obtain ⟨⟨session, t, timers, view⟩, effects⟩ := o
  obtain ⟨tracker, hrel, rfl⟩ := h
  cases session
  · exact ⟨tracker, hrel, rfl⟩
  · exact ⟨tracker, hrel, rfl⟩

theorem Relists.withTimers (h : o.Relists o') (timers : Timers) :
    (o.withTimers timers).Relists (o'.withTimers timers) := by
  obtain ⟨tracker, hrel, rfl⟩ := h
  exact ⟨tracker, hrel, rfl⟩

theorem Relists.flush [Scalar α] (h : o.Relists o') (config : Config α) (now : Int)
    (area : String) : (o.flush config now area).Relists (o'.flush config now area) := by
  obtain ⟨⟨session, t, timers, view⟩, effects⟩ := o
  obtain ⟨tracker, hrel, rfl⟩ := h
  cases hrel with
  | none => exact ⟨none, .none, rfl⟩
  | @some t t' ht =>
    obtain ⟨hbatch, hbegun⟩ := ht.beginFlush
    unfold Outcome.flush
    dsimp only [withTracker]
    rw [ht.area, ht.inFlight]
    split_ifs
    · exact ⟨_, .some ht, rfl⟩
    · exact ⟨_, .some ht, rfl⟩
    · generalize t.beginFlush = begun at hbatch hbegun
      generalize t'.beginFlush = begun' at hbatch hbegun
      obtain ⟨_ | batch, u⟩ := begun <;> obtain ⟨batch', u'⟩ := begun' <;>
        obtain rfl := hbatch
      · exact ⟨_, .some ht, rfl⟩
      · exact ⟨_, .some hbegun, rfl⟩

theorem Relists.onFlushed [Scalar α] (h : o.Relists o') (config : Config α) (now : Int)
    (area : String) (success : Bool) :
    (o.onFlushed config now area success).Relists (o'.onFlushed config now area success) := by
  obtain ⟨⟨session, t, timers, view⟩, effects⟩ := o
  obtain ⟨tracker, hrel, rfl⟩ := h
  cases hrel with
  | none => exact ⟨none, .none, rfl⟩
  | @some t t' ht =>
    have hcompleted := ht.completeFlush success
    show (onFlushed config now area success ⟨⟨session, some t, timers, view⟩, effects⟩).Relists
      (onFlushed config now area success ⟨⟨session, some t', timers, view⟩, effects⟩)
    unfold onFlushed
    dsimp only
    rw [ht.area, hcompleted.pending]
    split_ifs
    · exact ⟨_, .some ht, rfl⟩
    · exact ⟨_, .some hcompleted, rfl⟩
    · exact ⟨_, .some hcompleted, rfl⟩

theorem Relists.drain (h : o.Relists o') : o.drain.Relists o'.drain := by
  obtain ⟨⟨session, t, timers, view⟩, effects⟩ := o
  obtain ⟨tracker, hrel, rfl⟩ := h
  cases hrel with
  | none => exact ⟨none, .none, rfl⟩
  | @some t t' ht =>
    have hlast := ht.drain
    unfold Outcome.drain
    dsimp only [withTracker]
    rw [hlast]
    split
    · exact ⟨_, .none, rfl⟩
    · exact ⟨_, .none, rfl⟩

theorem Relists.aim (h : o.Relists o') (fix : Fix α) : (o.aim fix).Relists (o'.aim fix) := by
  obtain ⟨⟨session, t, timers, view⟩, effects⟩ := o
  obtain ⟨tracker, hrel, rfl⟩ := h
  cases session with
  | none => exact ⟨tracker, hrel, rfl⟩
  | some session =>
    show (aim fix ⟨⟨some session, t, timers, view⟩, effects⟩).Relists
      (aim fix ⟨⟨some session, tracker, timers, view⟩, effects⟩)
    unfold aim
    dsimp only
    split_ifs
    · exact ⟨tracker, hrel, rfl⟩
    · exact ⟨tracker, hrel, rfl⟩

variable [Scalar α]

theorem Relists.unload (h : o.Relists o') (config : Config α) (now : Int) :
    (o.unload config now).Relists (o'.unload config now) := by
  have hended := h.inSession (·.finish config now)
  have hvacated : ((o.inSession (·.finish config now)).withSession none).Relists
      ((o'.inSession (·.finish config now)).withSession none) := by
    obtain ⟨tracker, hrel, heq⟩ := hended
    exact ⟨tracker, hrel, by rw [heq]; rfl⟩
  exact hvacated.drain.withTimers .empty

theorem Relists.replace (h : o.Relists o') (config : Config α) (now : Int) (area : Area α)
    (ranks ranks' : Nat → Nat) (session : Session α) :
    (o.replace config now area ranks session).Relists
      (o'.replace config now area ranks' session) := by
  have hload : ∀ {o o' : Outcome α}, o.Relists o' →
      (o.load area ranks session).Relists (o'.load area ranks' session) := by
    -- the tracker is made anew, so here two orders may come in that were not there before
    rintro o o' ⟨tracker, -, rfl⟩
    exact ⟨_, .some (Tracker.relists_ofArea area ranks ranks'), rfl⟩
  have hsession : o'.navigator.session = o.navigator.session := by
    obtain ⟨tracker, -, rfl⟩ := h
    rfl
  unfold Outcome.replace
  rw [hsession]
  dsimp only
  split
  · exact hload (h.unload config now)
  · exact hload h

/-- The same outcome but for the order in which tracks are listed, and the percentages told. -/
def Recounts (o o' : Outcome α) : Prop :=
  o.navigator.Relists o'.navigator ∧ List.Forall₂ Effect.Recounts o.effects o'.effects

theorem Relists.recounts (h : o.Relists o') : o.Recounts o' := by
  obtain ⟨tracker, hrel, rfl⟩ := h
  exact ⟨⟨tracker, hrel, rfl⟩, List.forall₂_same.2 fun e _ => .refl e⟩

variable {config : Config α} {now : Int}

/-- The percentage is told last, so nothing hangs on it. -/
theorem Relists.promote (h : o.Relists o') (hits : IdSet) {u u' : Tracker α} (hu : u.Relists u') :
    (o.promote config now hits u).Recounts (o'.promote config now hits u') := by
  obtain ⟨tracker, -, rfl⟩ := h
  unfold Outcome.promote
  dsimp only
  rw [hu.area]
  split
  · exact ⟨⟨_, .some hu, rfl⟩, List.forall₂_same.2 fun e _ => .refl e⟩
  · exact ⟨⟨_, .some hu, rfl⟩, List.rel_append (List.forall₂_same.2 fun e _ => .refl e)
      (.cons (.percent hu _ _) .nil)⟩

variable [Geodesy α]

theorem Relists.runTasks (config : Config α) (now : Int) :
    ∀ (tasks : List Task) {o o' : Outcome α}, o.Relists o' →
      (tasks.foldl (runTask config now) o).Relists (tasks.foldl (runTask config now) o')
  | [], _, _, h => h
  | .settle :: tasks, _, _, h => Relists.runTasks config now tasks (h.inSession _)
  | .flush area :: tasks, _, _, h => Relists.runTasks config now tasks (h.flush config now area)

theorem Relists.cover (h : o.Relists o') (fix : Fix α) :
    Refusal.Agree Recounts (o.cover config now fix) (o'.cover config now fix) := by
  obtain ⟨⟨session, t, timers, view⟩, effects⟩ := o
  have hagain := h
  obtain ⟨tracker, hrel, rfl⟩ := h
  cases session with
  | none => exact .done hagain.recounts
  | some session =>
    cases hrel with
    | none => exact .done hagain.recounts
    | some ht =>
      unfold Outcome.cover
      dsimp only [withTracker]
      by_cases hunderway : ¬ session.phase.IsUnderway
      · rw [if_pos hunderway, if_pos hunderway]
        exact .done hagain.recounts
      · rw [if_neg hunderway, if_neg hunderway]
        rcases ht.observation? config.coverage fix.point with
          ⟨hnone, hnone'⟩ | ⟨hits, u, u', hsome, hsome', hu⟩
        · rw [hnone, hnone']
          exact .refused _
        · rw [hsome, hsome']
          exact .done (hagain.promote hits hu)

theorem Relists.onFix (h : o.Relists o') (fix : Fix α) :
    Refusal.Agree Recounts (o.onFix config now fix) (o'.onFix config now fix) := by
  unfold Outcome.onFix
  split
  · exact .done (h.inSession _).recounts
  · exact ((h.inSession _).aim fix).cover fix

theorem Relists.respond_areaLoaded (h : o.Relists o') (config : Config α) (now : Int)
    (area : Area α) (ranks ranks' : Nat → Nat) :
    Refusal.Agree Recounts (Navigator.respond config now o (.areaLoaded area ranks))
      (Navigator.respond config now o' (.areaLoaded area ranks')) := by
  unfold Navigator.respond
  dsimp only
  split
  · exact .refused _
  · split
    · exact .done (h.replace config now area ranks ranks' _).recounts
    · exact .refused _

theorem Relists.respond (h : o.Relists o') (config : Config α) (now : Int) {event event' : Event α}
    (hevent : event.Relists event') :
    Refusal.Agree Recounts (Navigator.respond config now o event)
      (Navigator.respond config now o' event') := by
  cases hevent with
  | areaLoaded area ranks ranks' => exact h.respond_areaLoaded config now area ranks ranks'
  | refl =>
    cases event with
    | areaLoaded area ranks => exact h.respond_areaLoaded config now area ranks ranks
    | fix fix => exact h.onFix fix
    | begin => exact .done (h.inSession _).recounts
    | acceptOffer => exact .done (h.inSession _).recounts
    | dismissOffer => exact .done (h.inSession _).recounts
    | directions id path => exact .done (h.inSession _).recounts
    | flushed area success => exact .done (h.onFlushed config now area success).recounts
    | view view =>
      obtain ⟨tracker, hrel, rfl⟩ := h
      exact .done (Relists.recounts ⟨tracker, hrel, rfl⟩)
    | tick => exact .done (h.inSession _).recounts
    | finish => exact .done (h.unload config now).recounts

end Outcome

namespace Navigator

variable [Scalar α] [Geodesy α] {config : Config α} {n n' : Navigator α}

theorem Relists.due (h : n.Relists n') (config : Config α) (now : Int) :
    (n.due config now).Relists (n'.due config now) := by
  obtain ⟨tracker, hrel, rfl⟩ := h
  exact Outcome.Relists.runTasks config now _ ⟨tracker, hrel, rfl⟩

theorem Relists.answer (h : n.Relists n') (config : Config α) (now : Int) {event event' : Event α}
    (hevent : event.Relists event') :
    (n.answer config now event).Recounts (n'.answer config now event') := by
  have hdue := h.due config now
  have hagree := hdue.respond config now hevent
  unfold Navigator.answer Navigator.handle
  dsimp only
  -- a refusal leaves what the tasks that were due have come to, and drops what they tell
  generalize respond config now (n.due config now) event = r at hagree ⊢
  generalize respond config now (n'.due config now) event' = r' at hagree ⊢
  cases hagree with
  | refused reason => exact ⟨rfl, hevent, .refused reason, hdue.recounts.1⟩
  | done h => exact ⟨rfl, hevent, .done h.2, h.1⟩

/-- Whatever is called, the order of the tracks stays the only difference. -/
theorem Relists.log (config : Config α) {calls calls' : List (Int × Event α)}
    (hcalls : List.Forall₂ Event.RelistsAt calls calls') : ∀ {n n' : Navigator α}, n.Relists n' →
      List.Forall₂ Answer.Recounts (n.log config calls) (n'.log config calls') := by
  induction hcalls with
  | nil => exact fun _ => .nil
  | @cons call call' _ _ hcall _ ih =>
    intro n n' h
    obtain ⟨now, event⟩ := call
    obtain ⟨now', event'⟩ := call'
    obtain ⟨rfl, hevent⟩ := hcall
    have hanswer := h.answer config now hevent
    exact .cons hanswer (ih hanswer.navigator)

theorem Relists.log_results (hsum : Scalar.IsOrderless α) (h : n.Relists n')
    {calls calls' : List (Int × Event α)} (hcalls : List.Forall₂ Event.RelistsAt calls calls') :
    (n.log config calls).map (·.result) = (n'.log config calls').map (·.result) := by
  have hlog := h.log config hcalls
  rw [← List.forall₂_eq_eq_eq, List.forall₂_map_left_iff, List.forall₂_map_right_iff]
  exact hlog.imp fun _ _ h => h.result_eq hsum

/-- Two navigators that show the map alike are the same once an area has been loaded into both, but
for the order in which its tracks are listed, and answer alike from then on but for percentages.
What is told is what finishing tells and then what loading the area tells, and finishing once more
comes to nothing. -/
theorem Reachable.load_forgets (h : Reachable config n) (h' : Reachable config n')
    (hview : n.view = n'.view) (now : Int) {area : Area α} {route : Route α}
    (hroute : Route.ofPoints config.turns area.route = .ok route) (ranks ranks' : Nat → Nat) :
    (config.smoothing.capacity < Smoother.tooManySamples →
      ∃ ended ended' shown vacated after after',
        n.handle config now .finish = (.ok ended, vacated)
          ∧ n'.handle config now .finish = (.ok ended', vacated)
          ∧ vacated.handle config now (.areaLoaded area ranks) = (.ok shown, after)
          ∧ vacated.handle config now (.areaLoaded area ranks') = (.ok shown, after')
          ∧ n.handle config now (.areaLoaded area ranks) = (.ok (ended ++ shown), after)
          ∧ n'.handle config now (.areaLoaded area ranks') = (.ok (ended' ++ shown), after')
          ∧ after.Relists after' ∧ (ranks = ranks' → after = after')
          ∧ ∀ calls calls', List.Forall₂ Event.RelistsAt calls calls' →
            List.Forall₂ Answer.Recounts (after.log config calls) (after'.log config calls')
              ∧ (Scalar.IsOrderless α → (after.log config calls).map (·.result)
                = (after'.log config calls').map (·.result)))
      ∧ (¬ config.smoothing.capacity < Smoother.tooManySamples →
        (n.handle config now (.areaLoaded area ranks)).1 = .error .noRoom
          ∧ (n'.handle config now (.areaLoaded area ranks')).1 = .error .noRoom)
      ∧ ∀ later, (n.handle config now .finish).2.handle config later .finish
          = (.ok [], (n.handle config now .finish).2) := by
  refine ⟨fun hroom => ?_, fun hroom => ?_, fun later => ?_⟩
  · have hload := h.handle_areaLoaded now ranks hroute hroom
    have hload' := h'.handle_areaLoaded now ranks' hroute hroom
    have hvacant := (reachable_vacant n.view).handle_areaLoaded now ranks hroute hroom
    have hvacant' := (reachable_vacant n.view).handle_areaLoaded now ranks' hroute hroom
    have hfinish' := n'.handle_finish config now
    rw [← hview] at hload' hfinish'
    have hrelists : (loadedWith area ranks (.ofRoute area.name route .fresh) n.view).Relists
        (loadedWith area ranks' (.ofRoute area.name route .fresh) n.view) :=
      ⟨_, .some (Tracker.relists_ofArea area ranks ranks'), rfl⟩
    exact ⟨_, _, _, _, _, _, n.handle_finish config now, hfinish', hvacant, hvacant', hload, hload',
      hrelists, fun hsame => by rw [hsame],
      fun calls calls' hcalls =>
        ⟨hrelists.log config hcalls, fun hsum => hrelists.log_results hsum hcalls⟩⟩
  · rw [n.handle_areaLoaded_noRoom now ranks hroute hroom,
      n'.handle_areaLoaded_noRoom now ranks' hroute hroom]
    exact ⟨rfl, rfl⟩
  · rw [n.handle_finish config now]
    rfl

/-- A driver at the start of the road and one who rejoined it further on are given the same area,
with the last of its segments listed first for one of them. -/
theorem load_forgets_south : ∃ told told' after after',
    Trial.arriving.handle .standard 3000 (.areaLoaded (Trial.area "south")) = (.ok told, after)
      ∧ Trial.rejoining.handle .standard 3000 (.areaLoaded (Trial.area "south") (2 - ·))
        = (.ok told', after')
      ∧ after.Relists after' ∧ Trial.arriving.phase ≠ Trial.rejoining.phase
      ∧ (after.log .standard [(3000, Trial.seen 0 3000)]).map (·.result)
        = (after'.log .standard [(3000, Trial.seen 0 3000)]).map (·.result) := by
  have hview : Trial.arriving.view = Trial.rejoining.view := by decide +kernel
  have hisRoute :
      (Route.ofPoints Config.standard.turns (Trial.area "south").route).isOk = true := by
    decide +kernel
  rcases hroute : Route.ofPoints Config.standard.turns (Trial.area "south").route with fault | route
  · rw [hroute] at hisRoute
    cases hisRoute
  obtain ⟨hload, -⟩ := Reachable.load_forgets Trial.reachable_arriving Trial.reachable_rejoining
    hview 3000 hroute (fun _ => 0) (2 - ·)
  obtain ⟨ended, ended', shown, -, after, after', -, -, -, -, harriving, hrejoining, hrelists, -,
    hlog⟩ := hload (by decide +kernel)
  exact ⟨ended ++ shown, ended' ++ shown, after, after', harriving, hrejoining, hrelists,
    by decide +kernel,
    (hlog _ _ (.cons ⟨rfl, .refl _⟩ .nil)).2 Scalar.isOrderless_rat⟩

end Navigator

namespace Trial

/-- The ground is level, and lengths are those along its two axes. -/
@[reducible] def level : Geodesy Float where
  distance a b := (Scalar.abs (b.lon - a.lon) + Scalar.abs (b.lat - a.lat)) * 111195
  bearing a b := if a.lat < b.lat then 0 else 180
  degreeLength := 111195
  parallelScale _ := 1

/-- An area with segments of one, two and three tenths of a meter. -/
def tenths : Area Float where
  name := "tenths"
  route := [⟨0, 0⟩, ⟨0, 1⟩]
  segments := [⟨1, [⟨0, 0⟩, ⟨0, 0.1⟩], 0.1, false, false⟩,
    ⟨2, [⟨0, 0.3⟩, ⟨0, 0.4⟩], 0.2, false, false⟩, ⟨3, [⟨0, 0.6⟩, ⟨0, 0.7⟩], 0.3, false, false⟩]
  baseline := 0

/-- To the start of the road. -/
def arrival : List (Int × Event Float) :=
  [(0, .fix (.ofPoint ⟨0, 0⟩ 0)), (0, .begin), (0, .fix (.ofPoint ⟨0, 0⟩ 0))]

/-- Room is asked for more samples than there can be. -/
def hoarding : Config Float :=
  { Config.standard with
    smoothing := { Config.Smoothing.standard with capacity := Smoother.tooManySamples } }

/-- The percentages that are told, bit by bit. -/
def percents (effects : List (Effect Float)) : List UInt64 := effects.flatMap fun
  | .segmentsDriven _ _ percent => [percent.toBits]
  | _ => []

end Trial

section Level

attribute [local instance] Trial.level

/-- Where sums round, two navigators that were the same before one area was loaded into both can
tell different percentages of it; and where there is no room for the history it is not loaded. -/
theorem Trial.shares_relisted :
    (∃ ranks ranks', (((Navigator.fresh.handle .standard 0 (.areaLoaded tenths ranks)).2.log
        .standard arrival).map (·.result)) ≠ ((Navigator.fresh.handle .standard 0
          (.areaLoaded tenths ranks')).2.log .standard arrival).map (·.result))
      ∧ (Navigator.fresh.handle hoarding 0 (.areaLoaded tenths)).1 = .error .noRoom := by
  refine ⟨⟨id, (3 - ·), fun hsame => ?_⟩, ?_⟩
  · have hpercents := congrArg (List.map fun result => percents (result.toOption.getD [])) hsame
    revert hpercents
    decide +kernel
  · have hisRoute : (Route.ofPoints hoarding.turns tenths.route).isOk = true := by
      decide +kernel
    rcases hroute : Route.ofPoints hoarding.turns tenths.route with fault | route
    · rw [hroute] at hisRoute
      cases hisRoute
    · have hroom : ¬ hoarding.smoothing.capacity < Smoother.tooManySamples := lt_irrefl _
      rw [Navigator.fresh.handle_areaLoaded_noRoom 0 (fun _ => 0) hroute hroom]

end Level

end Roadbook
