import Roadbook.Proofs.Guidance.Run
import Roadbook.Proofs.Guidance.Sessions

/-!
# What a call does to the tracker

Of the effects of a call only those count that make segments driven or hand out a batch
(`Effect.booked`). While the area stays loaded, the tasks that are due hand out what is pending, at
most once (`Tracker.Flushed`), and then the event makes some segments driven, or is the outcome of a
batch, or does nothing to the tracker (`Tracker.Answered`).
-/

namespace Roadbook

namespace Effect

variable {α : Type}

/-- Effects that make segments driven or hand out a batch. -/
def isBooked : Effect α → Bool
  | .segmentsDriven _ _ _ | .persist _ _ => true
  | _ => false

def booked (effects : List (Effect α)) : List (Effect α) := effects.filter isBooked

@[simp] theorem booked_append (effects new : List (Effect α)) :
    booked (effects ++ new) = booked effects ++ booked new :=
  List.filter_append ..

theorem booked_eq_nil {effects : List (Effect α)} (h : ∀ e ∈ effects, e.isBooked = false) :
    booked effects = [] :=
  List.filter_eq_nil_iff.2 fun e he => by simp [h e he]

theorem persist_mem_booked {effects : List (Effect α)} {batch : Batch} {last : Bool} :
    persist batch last ∈ booked effects ↔ persist batch last ∈ effects := by
  simp [booked, isBooked]

theorem IsOwn.isBooked {e : Effect α} (h : e.IsOwn) : e.isBooked = false := by
  cases e <;> first | rfl | exact h.elim

end Effect

open Effect

theorem Dispatch.Acts.effects {α : Type} [Scalar α] {config : Config α} {now : Int}
    {d d' : Dispatch α} (h : Acts config now d d') :
    ∃ new, d'.effects = d.effects ++ new ∧ ∀ e ∈ new, e.IsOwn := by
  induction h with
  | refl => exact ⟨[], by simp, by simp⟩
  | tail _ hact ih =>
    obtain ⟨new, heffects, hown⟩ := ih
    obtain ⟨more, hmore, hown'⟩ := hact.effects
    refine ⟨new ++ more, ?_, List.forall_mem_append.2 ⟨hown, hown'⟩⟩
    rw [hmore, heffects, List.append_assoc]

/-- The point that a call has the segments near to it driven by: that of a good fix, if the driver
is then underway. -/
def Answer.surveyed? {α : Type} [Scalar α] (config : Config α) (a : Answer α) : Option (Point α) :=
  match a.event, a.result with
  | .fix fix, .ok _ =>
    if fix.check a.now config.guidance.maxAge config.guidance.maxAccuracy = none
        ∧ a.navigator.phase.IsUnderway then some fix.point
    else none
  | _, _ => none

namespace Tracker

variable {α : Type}

/-- What the tasks that are due do to a tracker, with what is booked of it. -/
inductive Flushed (t : Tracker α) : Tracker α → List (Effect α) → Prop
  | idle : t.Flushed t []
  | begun {batch : Batch} {t' : Tracker α} (h : t.beginFlush = (some batch, t')) :
    t.Flushed t' [.persist batch false]

theorem Flushed.coversAlike {t t' : Tracker α} {effects : List (Effect α)}
    (h : t.Flushed t' effects) : t'.CoversAlike t := by
  cases h with
  | idle => exact .refl t
  | begun hb => exact .of_beginFlush hb

/-- What an event does to a tracker, with what is booked of it. -/
inductive Answered [Scalar α] [Geodesy α] (config : Config α) (a : Answer α) (t : Tracker α) :
    Tracker α → List (Effect α) → Prop
  | quiet (h : a.surveyed? config = none) (hevent : ∀ success, a.event ≠ .flushed t.area success) :
    t.Answered config a t []
  | completed {success : Bool} (h : a.event = .flushed t.area success) :
    t.Answered config a (t.completeFlush success).2 []
  | missed {p : Point α} (h : a.surveyed? config = some p)
    (hits : (t.observe config.coverage p).1.isEmpty = true) : t.Answered config a t []
  | observed {p : Point α} {hits : IdSet} {t' : Tracker α} (h : a.surveyed? config = some p)
    (hob : t.observe config.coverage p = (hits, t')) (hne : hits.isEmpty = false) :
    t.Answered config a t' [.segmentsDriven t'.area hits.toList t'.percent]

end Tracker

namespace Outcome

variable {α : Type} {o o' : Outcome α} {t : Tracker α}

/-- Alike in the tracker and in what is booked. -/
structure BooksAlike (o' o : Outcome α) : Prop where
  tracker : o'.navigator.tracker = o.navigator.tracker
  booked : booked o'.effects = booked o.effects

theorem booksAlike_inSession [Scalar α] {config : Config α} {now : Int}
    {operation : Dispatch α → Dispatch α} (h : ∀ d, Dispatch.Acts config now d (operation d))
    (o : Outcome α) : (o.inSession operation).BooksAlike o := by
  rcases hs : o.navigator.session with _ | s
  · rw [inSession_none hs]
    exact ⟨rfl, rfl⟩
  · rw [inSession_some hs]
    obtain ⟨new, heffects, hown⟩ := (h (o.dispatch s)).effects
    refine ⟨rfl, ?_⟩
    show booked (operation (o.dispatch s)).effects = booked o.effects
    rw [heffects, booked_append, booked_eq_nil fun e he => (hown e he).isBooked, List.append_nil]
    rfl

theorem booksAlike_resolve (id : Nat) (found : Option (List (Point α))) (o : Outcome α) :
    (o.inSession (·.resolve id found)).BooksAlike o := by
  rcases hs : o.navigator.session with _ | s
  · rw [inSession_none hs]
    exact ⟨rfl, rfl⟩
  · rw [inSession_some hs]
    rcases (o.dispatch s).resolve_cases id found with heq | ⟨r, -, -, -, heq⟩ <;> rw [heq]
    · exact ⟨rfl, rfl⟩
    · refine ⟨rfl, ?_⟩
      show booked (o.effects ++ [.guidancePath _ _ _]) = booked o.effects
      rw [booked_append, booked_eq_nil (List.forall_mem_singleton.2 rfl), List.append_nil]

theorem booksAlike_aim (o : Outcome α) (fix : Fix α) : (o.aim fix).BooksAlike o := by
  unfold aim
  split
  · split_ifs
    · refine ⟨rfl, ?_⟩
      show booked (o.effects ++ [.camera _ _]) = booked o.effects
      rw [booked_append, booked_eq_nil (List.forall_mem_singleton.2 rfl), List.append_nil]
    · exact ⟨rfl, rfl⟩
  · exact ⟨rfl, rfl⟩

/-- What is booked when an area is unloaded is a last batch of all that is owed. -/
theorem booked_unload [Scalar α] (config : Config α) (now : Int)
    (ht : o.navigator.tracker = some t) :
    ∃ last, booked (o.unload config now).effects = booked o.effects ++ last
      ∧ (last = [] ∧ (∀ id, ¬ t.Owes id) ∨ last = [.persist (t.batch t.unconfirmed) true]) := by
  have hacts : ∀ d : Dispatch α, Dispatch.Acts config now d (d.finish config now) :=
    Dispatch.acts_finish
  have halike := booksAlike_inSession hacts o
  have htracker := halike.tracker.trans ht
  rcases ((o.inSession (·.finish config now)).withSession none).drain_cases with
    ⟨heq, hnone⟩ | ⟨u, hu, heq⟩
  · refine ⟨[], ?_, .inl ⟨rfl, hnone t htracker⟩⟩
    rw [List.append_nil, ← halike.booked]
    exact congrArg (booked ·.effects) heq
  · obtain rfl := Option.some.inj (hu.symm.trans htracker)
    refine ⟨_, ?_, .inr rfl⟩
    rw [← halike.booked]
    exact (congrArg (booked ·.effects) heq).trans (booked_append _ _)

variable {config : Config α} {now : Int}

/-- A flush hands out what is pending, or comes to nothing that is booked. -/
theorem flush_cases [Scalar α] (o : Outcome α) (area : String) :
    (o.flush config now area).BooksAlike o
      ∨ ∃ t batch tracker, o.navigator.tracker = some t ∧ t.area = area
        ∧ t.beginFlush = (some batch, tracker)
        ∧ o.flush config now area = (o.withTracker (some tracker)).emit (.persist batch false) := by
  unfold flush
  split
  · exact .inl ⟨rfl, rfl⟩
  · rename_i t ht
    split_ifs with harea
    · exact .inl ⟨rfl, rfl⟩
    · exact .inl ⟨rfl, rfl⟩
    · split
      · rename_i batch tracker hb
        exact .inr ⟨t, batch, tracker, ht, not_not.1 harea, hb, rfl⟩
      · exact .inl ⟨rfl, rfl⟩

/-- A tracker has been flushed, at most, since it was `t`. -/
def IsFlushed (t : Tracker α) (o : Outcome α) : Prop :=
  ∃ t', o.navigator.tracker = some t' ∧ t.Flushed t' (booked o.effects)

theorem IsFlushed.congr (h : o.IsFlushed t) (halike : o'.BooksAlike o) : o'.IsFlushed t := by
  obtain ⟨t', ht', hflushed⟩ := h
  refine ⟨t', halike.tracker.trans ht', ?_⟩
  rwa [halike.booked]

theorem IsFlushed.flush [Scalar α] (h : o.IsFlushed t) (area : String) :
    (o.flush config now area).IsFlushed t := by
  rcases o.flush_cases area with halike | ⟨u, batch, tracker, hu, -, hb, heq⟩
  · exact h.congr halike
  · obtain ⟨t', ht', hflushed⟩ := h
    obtain rfl := Option.some.inj (hu.symm.trans ht')
    rw [heq]
    refine ⟨tracker, rfl, ?_⟩
    show t.Flushed tracker (booked (o.effects ++ [.persist batch false]))
    rw [booked_append]
    -- a batch that is already handed out is in flight, which rules out another one
    generalize booked o.effects = sofar at hflushed
    cases hflushed with
    | idle => exact .begun hb
    | begun hfirst =>
      obtain ⟨-, -, -, rfl⟩ := Tracker.beginFlush_eq_some.1 hfirst
      obtain ⟨hfree, -⟩ := Tracker.beginFlush_eq_some.1 hb
      cases hfree

variable [Scalar α] [Geodesy α]

theorem isFlushed_runTasks : ∀ (tasks : List Task) {o : Outcome α}, o.IsFlushed t →
    (tasks.foldl (runTask config now) o).IsFlushed t
  | [], _, h => h
  | .settle :: tasks, o, h =>
    isFlushed_runTasks tasks (h.congr (booksAlike_inSession Dispatch.acts_settle o))
  | .flush area :: tasks, _, h => isFlushed_runTasks tasks (h.flush area)

omit [Geodesy α] in
theorem promote_of_isEmpty {hits : IdSet} (h : hits.isEmpty = true) (tracker : Tracker α)
    (o : Outcome α) : o.promote config now hits tracker = o.withTracker (some tracker) :=
  if_pos h

omit [Geodesy α] in
theorem promote_of_nonempty {hits : IdSet} (h : hits.isEmpty = false) (tracker : Tracker α)
    (o : Outcome α) : o.promote config now hits tracker =
      ((o.withTracker (some tracker)).emit (.segmentsDriven tracker.area hits.toList
        tracker.percent)).scheduleFlush config now tracker.area :=
  if_neg (by simp [h])

/-- The ground of a fix is covered just while underway. -/
theorem cover_underway {fix : Fix α} (ht : o.navigator.tracker = some t)
    (hok : o.cover config now fix = .ok o') :
    (¬ o.navigator.phase.IsUnderway ∧ o' = o)
      ∨ o.navigator.phase.IsUnderway ∧ ∃ hits tracker,
        t.observe config.coverage fix.point = (hits, tracker)
          ∧ o' = o.promote config now hits tracker := by
  unfold cover at hok
  rcases hs : o.navigator.session with _ | s
  · rw [hs] at hok
    cases hok
    exact .inl ⟨by simp [Navigator.phase, hs, Phase.IsUnderway], rfl⟩
  · have hphase : o.navigator.phase = s.phase := by simp only [Navigator.phase, hs]
    rw [hs, ht] at hok
    dsimp only at hok
    rw [hphase]
    by_cases hunder : s.phase.IsUnderway
    · rw [if_neg (not_not.2 hunder)] at hok
      split at hok
      · rename_i hits tracker hob
        cases hok
        exact .inr ⟨hunder, hits, tracker, Tracker.observation?_eq_some hob, rfl⟩
      · cases hok
    · rw [if_pos hunder] at hok
      cases hok
      exact .inl ⟨hunder, rfl⟩

/-- A good fix makes the segments driven that it touches, if any, while underway. -/
theorem answered_cover {fix : Fix α} (ht : o.navigator.tracker = some t)
    (hok : o.cover config now fix = .ok o')
    (hcheck : fix.check now config.guidance.maxAge config.guidance.maxAccuracy = none) :
    ∃ t' new, o'.navigator.tracker = some t' ∧ booked o'.effects = booked o.effects ++ new
      ∧ t.Answered config ⟨now, .fix fix, .ok o'.effects, o'.navigator⟩ t' new := by
  have hsurveyed : (Answer.mk now (.fix fix) (.ok o'.effects) o'.navigator).surveyed? config
      = if o'.navigator.phase.IsUnderway then some fix.point else none := by
    simp only [Answer.surveyed?, hcheck, true_and]
  rcases cover_underway ht hok with ⟨hidle, rfl⟩ | ⟨hunder, hits, tracker, hob, heq⟩
  · rw [if_neg hidle] at hsurveyed
    exact ⟨t, [], ht, by simp, .quiet hsurveyed (by simp)⟩
  · have hphase : o'.navigator.phase = o.navigator.phase := by
      unfold Navigator.phase
      rw [(leavesSession_cover hok).session]
    rw [hphase, if_pos hunder] at hsurveyed
    rcases hempty : hits.isEmpty with _ | _
    · rw [promote_of_nonempty hempty] at heq
      refine ⟨tracker, _, ?_, ?_, .observed hsurveyed hob hempty⟩ <;> rw [heq]
      · rfl
      · exact booked_append o.effects [.segmentsDriven _ _ _]
    · rw [promote_of_isEmpty hempty] at heq
      have hmissed : (t.observe config.coverage fix.point).1.isEmpty = true := by rwa [hob]
      have hkeep := Tracker.observe_of_isEmpty hmissed
      rw [hob] at hkeep
      refine ⟨t, [], ?_, ?_, .missed hsurveyed hmissed⟩ <;> rw [heq]
      · exact congrArg some hkeep
      · rw [List.append_nil]
        rfl

theorem answered_onFix {fix : Fix α} (ht : o.navigator.tracker = some t)
    (hok : o.onFix config now fix = .ok o') :
    ∃ t' new, o'.navigator.tracker = some t' ∧ booked o'.effects = booked o.effects ++ new
      ∧ t.Answered config ⟨now, .fix fix, .ok o'.effects, o'.navigator⟩ t' new := by
  unfold onFix at hok
  rcases hcheck : fix.check now config.guidance.maxAge config.guidance.maxAccuracy with _ | fault
  · rw [hcheck] at hok
    have hmoved : (o.inSession (·.applyFix config now fix)).BooksAlike o :=
      booksAlike_inSession (Dispatch.acts_applyFix · fix) o
    have haimed := booksAlike_aim (o.inSession (·.applyFix config now fix)) fix
    have htracker := (haimed.tracker.trans hmoved.tracker).trans ht
    have hanswered := answered_cover htracker hok hcheck
    rwa [haimed.booked, hmoved.booked] at hanswered
  · rw [hcheck] at hok
    cases hok
    have hacts : ∀ d : Dispatch α, Dispatch.Acts config now d (d.loseSignal config) :=
      Dispatch.acts_loseSignal
    have halike := booksAlike_inSession hacts o
    refine ⟨t, [], halike.tracker.trans ht, ?_, .quiet ?_ (by simp)⟩
    · rw [halike.booked, List.append_nil]
    · simp [Answer.surveyed?, hcheck]

end Outcome

namespace Navigator

open Outcome

variable {α : Type} [Scalar α] [Geodesy α] {config : Config α} {now : Int} {n n' : Navigator α}
  {t : Tracker α}

/-- The tasks that are due flush the tracker, at most. -/
theorem flushed_due (ht : n.tracker = some t) (config : Config α) (now : Int) :
    ∃ t', (n.due config now).navigator.tracker = some t'
      ∧ t.Flushed t' (booked (n.due config now).effects) :=
  isFlushed_runTasks _ ⟨t, ht, .idle⟩

/-- What an event does to the tracker of the area that stays loaded. -/
theorem answered_respond {o o' : Outcome α} {event : Event α} (ht : o.navigator.tracker = some t)
    (hok : respond config now o event = .ok o') (hkeeps : ¬ event.Unloads) :
    ∃ t' new, o'.navigator.tracker = some t' ∧ booked o'.effects = booked o.effects ++ new
      ∧ t.Answered config ⟨now, event, .ok o'.effects, o'.navigator⟩ t' new := by
  have hquiet : o'.BooksAlike o → (∀ fix, event ≠ .fix fix) →
      (∀ success, event ≠ .flushed t.area success) → ∃ t' new, o'.navigator.tracker = some t'
        ∧ booked o'.effects = booked o.effects ++ new
        ∧ t.Answered config ⟨now, event, .ok o'.effects, o'.navigator⟩ t' new := by
    intro halike hfix hflushed
    refine ⟨t, [], halike.tracker.trans ht, by rw [halike.booked, List.append_nil],
      .quiet ?_ hflushed⟩
    cases event <;> first | rfl | exact absurd rfl (hfix _)
  cases event with
  | areaLoaded area => exact absurd trivial hkeeps
  | finish => exact absurd trivial hkeeps
  | fix fix => exact answered_onFix ht hok
  | flushed area success =>
    cases hok
    rcases o.onFlushed_cases config now area success with
      ⟨u, timers, hu, rfl, heq⟩ | ⟨hother, heq⟩ <;> rw [heq]
    · obtain rfl := Option.some.inj (hu.symm.trans ht)
      exact ⟨_, [], rfl, by rw [List.append_nil]; rfl, .completed rfl⟩
    · rw [heq] at hquiet
      refine hquiet ⟨rfl, rfl⟩ (by simp) fun success hevent => hother t ht ?_
      cases hevent
      rfl
  | directions id found =>
    cases hok
    exact hquiet (booksAlike_resolve id found o) (by simp) (by simp)
  | view view =>
    cases hok
    exact hquiet ⟨rfl, rfl⟩ (by simp) (by simp)
  | begin =>
    cases hok
    exact hquiet (booksAlike_inSession Dispatch.acts_begin o) (by simp) (by simp)
  | acceptOffer =>
    cases hok
    exact hquiet (booksAlike_inSession Dispatch.acts_accept o) (by simp) (by simp)
  | dismissOffer =>
    cases hok
    exact hquiet (booksAlike_inSession Dispatch.acts_dismiss o) (by simp) (by simp)
  | tick =>
    cases hok
    exact hquiet (booksAlike_inSession Dispatch.acts_checkSignal o) (by simp) (by simp)

end Navigator

end Roadbook
