import Roadbook.Proofs.Guidance.Run

/-!
# What an event has a session do

An event that leaves the area loaded has the session carry out one operation at the most
(`Session.Does`, `Outcome.respond_does`). All else that comes of it leaves the session alone
(`Outcome.LeavesSession`). And all but a few of these operations leave alone what guidance along the
route goes by (`Session.SameCourse`).
-/

namespace Roadbook

variable {α : Type} [Scalar α] [Geodesy α] {config : Config α} {now : Int}

/-- Effects that a session has no part in. -/
def Effect.IsBeside {α : Type} : Effect α → Prop
  | .camera _ _ | .segmentsDriven _ _ _ | .persist _ _ => True
  | _ => False

/-- The session stays as it was, and nothing has come of it. -/
structure Outcome.LeavesSession {α : Type} (o o' : Outcome α) : Prop where
  session : o'.navigator.session = o.navigator.session
  effects : ∃ new, o'.effects = o.effects ++ new ∧ ∀ e ∈ new, e.IsBeside

namespace Outcome

variable {o o' o'' : Outcome α}

omit [Scalar α] [Geodesy α] in
theorem LeavesSession.of_effects (hs : o'.navigator.session = o.navigator.session)
    (heffects : o'.effects = o.effects) : o.LeavesSession o' :=
  ⟨hs, [], by rw [heffects, List.append_nil], by simp⟩

omit [Scalar α] [Geodesy α] in
theorem LeavesSession.refl (o : Outcome α) : o.LeavesSession o := .of_effects rfl rfl

omit [Scalar α] [Geodesy α] in
theorem LeavesSession.trans (h : o.LeavesSession o') (h' : o'.LeavesSession o'') :
    o.LeavesSession o'' := by
  obtain ⟨hs, new, heq, hnew⟩ := h
  obtain ⟨hs', new', heq', hnew'⟩ := h'
  refine ⟨hs'.trans hs, new ++ new', ?_, List.forall_mem_append.2 ⟨hnew, hnew'⟩⟩
  rw [heq', heq, List.append_assoc]

omit [Geodesy α] in
theorem leavesSession_flush (config : Config α) (now : Int) (o : Outcome α) (area : String) :
    o.LeavesSession (o.flush config now area) := by
  unfold flush
  split
  · exact .refl o
  · split_ifs
    · exact .refl o
    · exact .of_effects rfl rfl
    · split
      · exact ⟨rfl, _, rfl, List.forall_mem_singleton.2 trivial⟩
      · exact .refl o

omit [Scalar α] [Geodesy α] in
theorem leavesSession_aim (o : Outcome α) (fix : Fix α) : o.LeavesSession (o.aim fix) := by
  unfold aim
  split
  · split_ifs
    · exact ⟨rfl, _, rfl, List.forall_mem_singleton.2 trivial⟩
    · exact .refl o
  · exact .refl o

theorem leavesSession_cover {fix : Fix α} (h : o.cover config now fix = .ok o') :
    o.LeavesSession o' := by
  rcases cover_cases h with rfl | ⟨t, hits, tracker, -, -, -, rfl⟩
  · exact .refl o'
  · exact ⟨rfl, _, rfl, List.forall_mem_singleton.2 trivial⟩

omit [Geodesy α] in
theorem leavesSession_onFlushed (config : Config α) (now : Int) (o : Outcome α) (area : String)
    (success : Bool) : o.LeavesSession (o.onFlushed config now area success) := by
  refine .of_effects ?_ (onFlushed_effects config now o area success)
  rcases o.onFlushed_cases config now area success with ⟨t, timers, -, -, heq⟩ | ⟨-, heq⟩ <;>
    rw [heq]
  rfl

omit [Scalar α] [Geodesy α] in
theorem inSession_id (o : Outcome α) : o.inSession id = o := by
  rcases hs : o.navigator.session with _ | s
  · exact inSession_none hs id
  · rw [inSession_some hs]
    exact withDispatch_dispatch hs

end Outcome

/-- What an event that leaves the area loaded has the session do. -/
inductive Session.Does (config : Config α) (now : Int) :
    Event α → (Dispatch α → Dispatch α) → Prop
  | fix {fix : Fix α}
    (hgood : fix.check now config.guidance.maxAge config.guidance.maxAccuracy = none) :
    Does config now (.fix fix) (·.applyFix config now fix)
  | ignore {fix : Fix α}
    (hbad : fix.check now config.guidance.maxAge config.guidance.maxAccuracy ≠ none) :
    Does config now (.fix fix) (·.loseSignal config)
  | begin : Does config now .begin (·.begin config now)
  | accept : Does config now .acceptOffer (·.accept config now)
  | dismiss : Does config now .dismissOffer (·.dismiss config now)
  | resolve (id : Nat) (found : Option (List (Point α))) :
    Does config now (.directions id found) (·.resolve id found)
  | flushed (area : String) (success : Bool) : Does config now (.flushed area success) id
  | view (view : View) : Does config now (.view view) id
  | tick : Does config now .tick (·.checkSignal config now)

theorem Outcome.respond_does {o o' : Outcome α} {event : Event α} (hkeeps : ¬ event.Unloads)
    (hok : Navigator.respond config now o event = .ok o') :
    ∃ operation, Session.Does config now event operation
      ∧ (o.inSession operation).LeavesSession o' := by
  cases event with
  | areaLoaded | finish => exact absurd trivial hkeeps
  | fix fix =>
    simp only [Navigator.respond, onFix] at hok
    split at hok
    · rename_i fault hbad
      cases hok
      exact ⟨_, .ignore (by simp [hbad]), .refl _⟩
    · rename_i hgood
      exact ⟨_, .fix hgood, (leavesSession_aim _ fix).trans (leavesSession_cover hok)⟩
  | begin =>
    cases hok
    exact ⟨_, .begin, .refl _⟩
  | acceptOffer =>
    cases hok
    exact ⟨_, .accept, .refl _⟩
  | dismissOffer =>
    cases hok
    exact ⟨_, .dismiss, .refl _⟩
  | directions id found =>
    cases hok
    exact ⟨_, .resolve id found, .refl _⟩
  | flushed area success =>
    cases hok
    refine ⟨id, .flushed area success, ?_⟩
    rw [inSession_id]
    exact leavesSession_onFlushed config now o area success
  | view view =>
    cases hok
    refine ⟨id, .view view, ?_⟩
    rw [inSession_id]
    exact .of_effects rfl rfl
  | tick =>
    cases hok
    exact ⟨_, .tick, .refl _⟩

/-- Alike in all that guidance along the route goes by, but for the position. -/
structure Session.SameCourse {α : Type} (s t : Session α) : Prop where
  route : s.route = t.route
  phase : s.phase = t.phase
  matcher : s.matcher = t.matcher
  smoother : s.smoother = t.smoother
  offer : s.offer = t.offer
  rejoined : s.rejoined = t.rejoined
  dismissed : s.dismissed = t.dismissed

namespace Dispatch

open Session

theorem sameCourse_announce (config : Config α) (d : Dispatch α) :
    (d.announce config).session.SameCourse d.session := by
  rcases announce_cases config d with heq | ⟨a, heq⟩ <;> rw [heq] <;>
    exact ⟨rfl, rfl, rfl, rfl, rfl, rfl, rfl⟩

theorem sameCourse_receive (now : Int) (fix : Fix α) (d : Dispatch α) :
    (d.receive now fix).session.SameCourse d.session := by
  rw [receive_session]
  exact ⟨rfl, rfl, rfl, rfl, rfl, rfl, rfl⟩

omit [Geodesy α] in
theorem sameCourse_askForStart (p : Point α) (d : Dispatch α) :
    (d.askForStart p).session.SameCourse d.session := by
  rcases askForStart_cases d p with heq | ⟨b, -, heq⟩ <;> rw [heq] <;>
    exact ⟨rfl, rfl, rfl, rfl, rfl, rfl, rfl⟩

omit [Scalar α] [Geodesy α] in
theorem sameCourse_resolve (id : Nat) (found : Option (List (Point α))) (d : Dispatch α) :
    (d.resolve id found).session.SameCourse d.session := by
  rcases d.resolve_cases id found with heq | ⟨r, -, -, -, heq⟩ <;> rw [heq] <;>
    exact ⟨rfl, rfl, rfl, rfl, rfl, rfl, rfl⟩

theorem sameCourse_loseSignal (config : Config α) (d : Dispatch α) :
    (d.loseSignal config).session.SameCourse d.session := by
  unfold loseSignal
  split_ifs
  · obtain ⟨hroute, hphase, hmatcher, hsmoother, hoffer, hrejoined, hdismissed⟩ :=
      sameCourse_announce config
        ((d.withSession { d.session with waiting := true }).emit .signalLost)
    exact ⟨hroute, hphase, hmatcher, hsmoother, hoffer, hrejoined, hdismissed⟩
  · exact ⟨rfl, rfl, rfl, rfl, rfl, rfl, rfl⟩

end Dispatch

end Roadbook
