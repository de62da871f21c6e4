import Roadbook.Proofs.Guidance.Run

/-!
# Coverage as a listener knows it

A listener who is shown the coverage of an area, and from then on counts as driven the segments
that are said to be, knows at any time which segments of the tracker are driven and which are not
(`Navigator.isKnownTo_run`): no effect but the two changes what the listener knows, and nothing but
what they tell of changes the two sets of the tracker.
-/

namespace Roadbook

/-- The segments that a listener takes to be driven, and those taken not to be. -/
structure Sketch where
  driven : IdSet
  undriven : IdSet
  deriving DecidableEq, Repr

def Tracker.sketch {α : Type} (t : Tracker α) : Sketch := ⟨t.driven, t.undriven⟩

namespace Sketch

variable {α : Type} {k : Sketch}

/-- Coverage that is shown replaces what was known, and segments made driven are moved. -/
def add (k : Sketch) : Effect α → Sketch
  | .showCoverage driven undriven => ⟨.ofList driven, .ofList undriven⟩
  | .segmentsDriven _ ids _ => ⟨k.driven.union (.ofList ids), k.undriven.diff (.ofList ids)⟩
  | _ => k

def addAll (k : Sketch) (effects : List (Effect α)) : Sketch := effects.foldl add k

@[simp] theorem addAll_append (k : Sketch) (effects new : List (Effect α)) :
    k.addAll (effects ++ new) = (k.addAll effects).addAll new := by
  simp [addAll]

theorem addAll_of_forall : ∀ {effects : List (Effect α)}, (∀ e ∈ effects, k.add e = k) →
    k.addAll effects = k
  | [], _ => rfl
  | e :: effects, h => by
    show (k.add e).addAll effects = k
    rw [h e List.mem_cons_self]
    exact addAll_of_forall fun e he => h e (List.mem_cons_of_mem _ he)

theorem add_of_isOwn {e : Effect α} (h : e.IsOwn) : k.add e = k := by
  cases e <;> first | rfl | exact h.elim

theorem add_of_isDue {e : Effect α} (h : e.IsDue) : k.add e = k := by
  cases e <;> first | rfl | exact h.elim

end Sketch

theorem Tracker.CoversAlike.sketch {α : Type} {t' t : Tracker α} (h : t'.CoversAlike t) :
    t'.sketch = t.sketch := by
  unfold Tracker.sketch
  rw [h.driven, h.undriven]

/-- A listener knows the coverage of the area that is loaded, if any. -/
def Navigator.IsKnownTo {α : Type} (k : Sketch) (n : Navigator α) : Prop :=
  ∀ t, n.tracker = some t → k = t.sketch

namespace Outcome

variable {α : Type} {o o' : Outcome α} {k : Sketch}

/-- The effects so far have told a listener of the coverage. -/
def IsTold (k : Sketch) (o : Outcome α) : Prop := o.navigator.IsKnownTo (k.addAll o.effects)

theorem IsTold.emit (h : o.IsTold k) {e : Effect α} (he : ∀ k : Sketch, k.add e = k) :
    (o.emit e).IsTold k := by
  intro t ht
  show k.addAll (o.effects ++ [e]) = t.sketch
  rw [Sketch.addAll_append, h t ht]
  exact he _

theorem IsTold.withDispatch (h : o.IsTold k) {d : Dispatch α} {new : List (Effect α)}
    (heffects : d.effects = o.effects ++ new) (hnew : ∀ e ∈ new, e.IsOwn) :
    (o.withDispatch d).IsTold k := by
  intro t ht
  show k.addAll d.effects = t.sketch
  rw [heffects, Sketch.addAll_append, h t ht]
  exact Sketch.addAll_of_forall fun e he => Sketch.add_of_isOwn (hnew e he)

theorem IsTold.withTracker (h : o.IsTold k) {t tracker : Tracker α}
    (ht : o.navigator.tracker = some t) (hsame : tracker.sketch = t.sketch) :
    (o.withTracker (some tracker)).IsTold k := by
  rintro _ ⟨⟩
  exact (h t ht).trans hsame.symm

theorem isTold_drain (o : Outcome α) (k : Sketch) : o.drain.IsTold k := by
  intro t ht
  rw [drain_tracker] at ht
  cases ht

theorem isTold_load [Scalar α] [Geodesy α] (o : Outcome α) (k : Sketch) (area : Area α)
    (ranks : Nat → Nat) (route : Route α) (smoother : Smoother α) :
    (o.load area ranks (.ofRoute area.name route smoother)).IsTold k := by
  rintro _ ⟨⟩
  simp only [Outcome.load, Outcome.emit, Sketch.addAll_append]
  show Sketch.mk _ _ = _
  rw [IdSet.ofList_toList, IdSet.ofList_toList]
  rfl

variable [Scalar α] [Geodesy α] {config : Config α} {now : Int}

theorem IsTold.promote (h : o.IsTold k) {t tracker : Tracker α} {p : Point α} {hits : IdSet}
    (ht : o.navigator.tracker = some t) (hob : t.observe config.coverage p = (hits, tracker))
    (area : String) (percent : α) :
    ((o.withTracker (some tracker)).emit (.segmentsDriven area hits.toList percent)).IsTold k := by
  rintro _ ⟨⟩
  show k.addAll (o.effects ++ [.segmentsDriven area hits.toList percent]) = tracker.sketch
  rw [Sketch.addAll_append, h t ht]
  show Sketch.mk (t.driven.union (.ofList hits.toList)) (t.undriven.diff (.ofList hits.toList)) = _
  rw [IdSet.ofList_toList]
  cases hob
  rfl

theorem Act.isTold (hact : Act config now o o') (h : o.IsTold k) : o'.IsTold k := by
  cases hact with
  | guide hs hd =>
    obtain ⟨new, heffects, hnew⟩ := hd.effects
    exact h.withDispatch heffects hnew
  | aside => exact h
  | aim p heading => exact h.emit fun _ => rfl
  | flush ht hb =>
    have halike := Tracker.CoversAlike.of_beginFlush hb
    exact (h.withTracker ht halike.sketch).emit fun _ => rfl
  | promote ht hob => exact h.promote ht hob _ _
  | drop => exact isTold_drain _ k
  | load _ _ area ranks route smoother => exact isTold_load o k area ranks route smoother

theorem Acts.isTold (hacts : Acts config now o o') (h : o.IsTold k) : o'.IsTold k := by
  induction hacts with
  | refl => exact h
  | tail _ hact ih => exact hact.isTold ih

omit [Scalar α] [Geodesy α] in
theorem IsTold.resolve (h : o.IsTold k) (id : Nat) (found : Option (List (Point α))) :
    (o.inSession (·.resolve id found)).IsTold k := by
  rcases hs : o.navigator.session with _ | s
  · rwa [inSession_none hs]
  · rw [inSession_some hs]
    rcases (o.dispatch s).resolve_cases id found with heq | ⟨r, -, -, -, heq⟩ <;> rw [heq]
    · exact h
    · have hkept : (o.withDispatch ((o.dispatch s).withSession { s with pending := none })).IsTold
        k := h
      exact hkept.emit fun _ => rfl

omit [Geodesy α] in
theorem IsTold.onFlushed (h : o.IsTold k) (area : String) (success : Bool) :
    (o.onFlushed config now area success).IsTold k := by
  rcases o.onFlushed_cases config now area success with ⟨t, timers, ht, -, heq⟩ | ⟨-, heq⟩ <;>
    rw [heq]
  · exact h.withTracker ht ((t.coversAlike_completeFlush success).sketch)
  · exact h

theorem IsTold.respond (h : o.IsTold k) (hp : o.navigator.IsPaired) {event : Event α}
    (hok : Navigator.respond config now o event = .ok o') : o'.IsTold k := by
  cases event with
  | directions id found =>
    cases hok
    exact h.resolve id found
  | flushed area success =>
    cases hok
    exact h.onFlushed area success
  | _ => exact (acts_respond hp hok (by simp) (by simp)).isTold h

end Outcome

namespace Navigator

variable {α : Type} [Scalar α] [Geodesy α] {config : Config α} {n : Navigator α} {k : Sketch}

/-- What is told in a call keeps a listener up to date. -/
theorem IsKnownTo.answer (h : n.IsKnownTo k) (hp : n.IsPaired) (now : Int) (event : Event α) :
    (n.answer config now event).navigator.IsKnownTo
      (k.addAll (n.answer config now event).effects) := by
  have hstart : (⟨n, []⟩ : Outcome α).IsTold k := h
  have hdue : (n.due config now).IsTold k := (acts_due n).isTold hstart
  rcases answer_cases config n now event with ⟨o, hok, ha⟩ | ⟨refusal, -, ha⟩ <;> rw [ha]
  · exact hdue.respond (hp.due config now) hok
  · have hquiet : k.addAll (n.due config now).effects = k :=
      Sketch.addAll_of_forall fun e he => Sketch.add_of_isDue (n.effects_due config now e he)
    rwa [Outcome.IsTold, hquiet] at hdue

theorem isKnownTo_run : ∀ (calls : List (Int × Event α)) {n : Navigator α} {k : Sketch},
    n.IsKnownTo k → n.IsPaired →
      (n.run config calls).IsKnownTo (k.addAll ((n.log config calls).flatMap Answer.effects))
  | [], _, _, h, _ => h
  | (now, event) :: calls, n, k, h, hp => by
    rw [run_cons, log_cons, List.flatMap_cons, Sketch.addAll_append]
    exact isKnownTo_run calls (h.answer hp now event) (hp.handle config now event)

end Navigator

end Roadbook
