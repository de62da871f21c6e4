import Roadbook.Proofs.Coverage.Calls
import Roadbook.Proofs.Coverage.Sketch

/-!
# What is driven after a run

As long as an area stays loaded, a segment of it is driven if it was when the area was loaded, or if
one of the points surveyed since is near enough to it. A point is surveyed when a good fix is taken
in and the driver is underway once it has been (`Answer.surveyed?`), whatever else happens in
between, so the order of the points is of no importance (`Navigator.Reachable.surveys`).
-/

namespace Roadbook

variable {α : Type} [Scalar α] [Geodesy α]

namespace Tracker

variable {rules : Config.Coverage α} {t t' start : Tracker α} {points : List (Point α)}
  {p : Point α} {id : Nat}

/-- Whether a point is near enough to a segment to make it driven. -/
def IsNear (t : Tracker α) (rules : Config.Coverage α) (p : Point α) (id : Nat) : Prop :=
  ∃ track, t.track? id = some track ∧ track.isWithin p rules.promoteRadius = true

theorem mem_touched : id ∈ t.touched rules p ↔ id ∈ t.undriven ∧ t.IsNear rules p id := by
  unfold touched IsNear
  rw [IdSet.mem_filter]
  rcases t.track? id with _ | track <;> simp

theorem isNear_congr (h : t.tracks = start.tracks) :
    t.IsNear rules p id ↔ start.IsNear rules p id := by
  unfold IsNear track?
  rw [h]

/-- What a tracker has become once some points have been surveyed. -/
structure Surveys (t : Tracker α) (rules : Config.Coverage α) (start : Tracker α)
    (points : List (Point α)) : Prop where
  tracks : t.tracks = start.tracks
  driven : ∀ id, id ∈ t.driven ↔ id ∈ start.driven
    ∨ id ∈ start.undriven ∧ ∃ p ∈ points, start.IsNear rules p id
  undriven : ∀ id, id ∈ t.undriven ↔ id ∈ start.undriven
    ∧ ¬ ∃ p ∈ points, start.IsNear rules p id

theorem surveys_nil (t : Tracker α) : t.Surveys rules t [] := ⟨rfl, by simp, by simp⟩

theorem Surveys.congr (h : t.Surveys rules start points) (halike : t'.CoversAlike t) :
    t'.Surveys rules start points := by
  refine ⟨halike.tracks.trans h.tracks, ?_, ?_⟩
  · rw [halike.driven]
    exact h.driven
  · rw [halike.undriven]
    exact h.undriven

/-- One more point makes the undriven segments driven that it is near to. -/
theorem Surveys.observe {hits : IdSet} (h : t.Surveys rules start points)
    (hob : t.observe rules p = (hits, t')) : t'.Surveys rules start (points ++ [p]) := by
  have htouched : ∀ id, id ∈ t.touched rules p ↔ id ∈ t.undriven ∧ start.IsNear rules p id := by
    intro id
    rw [mem_touched, isNear_congr h.tracks]
  have hpoints : ∀ id, (∃ q ∈ points ++ [p], start.IsNear rules q id)
      ↔ (∃ q ∈ points, start.IsNear rules q id) ∨ start.IsNear rules p id := by
    intro id
    simp only [List.mem_append, List.mem_singleton, or_and_right, exists_or, exists_eq_left]
  cases hob
  refine ⟨h.tracks, fun id => ?_, fun id => ?_⟩
  · rw [IdSet.mem_union, htouched, h.driven, h.undriven, hpoints]
    generalize (∃ q ∈ points, start.IsNear rules q id) = near
    tauto
  · rw [IdSet.mem_diff, htouched, h.undriven, hpoints]
    generalize (∃ q ∈ points, start.IsNear rules q id) = near
    tauto

theorem Surveys.flushed {effects : List (Effect α)} (h : t.Surveys rules start points)
    (hflushed : t.Flushed t' effects) : t'.Surveys rules start points :=
  h.congr hflushed.coversAlike

/-- A position that touches nothing may be counted among the points all the same. -/
theorem Surveys.answered {config : Config α} {a : Answer α} {effects : List (Effect α)}
    (h : t.Surveys config.coverage start points) (hanswered : t.Answered config a t' effects) :
    t'.Surveys config.coverage start (points ++ (a.surveyed? config).toList) := by
  cases hanswered with
  | quiet hnone =>
    rw [hnone, Option.toList_none, List.append_nil]
    exact h
  | @completed success hevent =>
    have hnone : a.surveyed? config = none := by simp only [Answer.surveyed?, hevent]
    rw [hnone, Option.toList_none, List.append_nil]
    exact h.congr (t.coversAlike_completeFlush success)
  | @missed p hp hmissed =>
    rw [hp]
    exact h.observe (Prod.ext rfl (observe_of_isEmpty hmissed))
  | observed hp hob =>
    rw [hp]
    exact h.observe hob

end Tracker

/-- The tracker that is loaded has surveyed some points. -/
def Navigator.Surveys (n : Navigator α) (rules : Config.Coverage α) (start : Tracker α)
    (points : List (Point α)) : Prop :=
  ∃ t, n.tracker = some t ∧ t.Surveys rules start points

namespace Navigator

open Outcome

variable {config : Config α} {now : Int} {n : Navigator α} {start : Tracker α}
  {points : List (Point α)}

/-- A call that leaves the area loaded surveys the point of its answer, if any. -/
theorem surveys_handle {event : Event α} (h : n.Surveys config.coverage start points)
    (hkeeps : ¬ (n.answer config now event).Unloads) :
    (n.handle config now event).2.Surveys config.coverage start
      (points ++ ((n.answer config now event).surveyed? config).toList) := by
  obtain ⟨t, ht, hsurveys⟩ := h
  obtain ⟨t₁, ht₁, hflushed⟩ := flushed_due ht config now
  have hsurveys₁ := hsurveys.flushed hflushed
  show (n.answer config now event).navigator.Surveys config.coverage start _
  rcases answer_cases config n now event with ⟨o, hok, ha⟩ | ⟨refusal, -, ha⟩ <;>
    rw [ha] at hkeeps ⊢
  · obtain ⟨t', new, ht', -, hanswered⟩ :=
      answered_respond ht₁ hok fun hunloads => hkeeps ⟨hunloads, rfl⟩
    exact ⟨t', ht', hsurveys₁.answered hanswered⟩
  · have hnone :
        (Answer.mk now event (.error refusal) (n.due config now).navigator).surveyed? config
          = none := by
      cases event <;> rfl
    rw [hnone, Option.toList_none, List.append_nil]
    exact ⟨t₁, ht₁, hsurveys₁⟩

theorem surveys_run : ∀ (calls : List (Int × Event α)) {n : Navigator α}
    {points : List (Point α)}, n.Surveys config.coverage start points →
      (∀ a ∈ n.log config calls, ¬ a.Unloads) →
        (n.run config calls).Surveys config.coverage start
          (points ++ (n.log config calls).filterMap (·.surveyed? config))
  | [], _, _, h, _ => by simpa [run, log] using h
  | (now, event) :: calls, n, points, h, hkeeps => by
    rw [log_cons, List.forall_mem_cons] at hkeeps
    have hrest := surveys_run calls (surveys_handle h hkeeps.1) hkeeps.2
    rw [run_cons, log_cons, List.filterMap_cons]
    cases hpoint : (n.answer config now event).surveyed? config <;> simpa [hpoint] using hrest

/-- While an area stays loaded, the driven segments are those that were driven at first and those
undriven ones that a surveyed point is near to, so the points may come in any order. A listener to
all that is told from the loading of the area on knows the segments that are driven and those that
are not. -/
theorem Reachable.surveys {n n₀ : Navigator α} (h : Reachable config n) {area : Area α}
    {ranks : Nat → Nat} {shown : List (Effect α)}
    (hload : n.handle config now (.areaLoaded area ranks) = (.ok shown, n₀))
    (calls : List (Int × Event α)) (hkeeps : ∀ a ∈ n₀.log config calls, ¬ a.Unloads) :
    (∃ t, (n₀.run config calls).tracker = some t
        ∧ (∀ id, id ∈ t.driven ↔ id ∈ (Tracker.ofArea area ranks).driven
          ∨ id ∈ (Tracker.ofArea area ranks).undriven
            ∧ ∃ p ∈ (n₀.log config calls).filterMap (·.surveyed? config),
              (Tracker.ofArea area ranks).IsNear config.coverage p id)
        ∧ ∀ k : Sketch, k.addAll (shown ++ (n₀.log config calls).flatMap Answer.effects)
            = ⟨t.driven, t.undriven⟩)
      ∧ ∀ calls', (∀ a ∈ n₀.log config calls', ¬ a.Unloads) →
        (∀ p, p ∈ (n₀.log config calls').filterMap (·.surveyed? config)
          ↔ p ∈ (n₀.log config calls).filterMap (·.surveyed? config)) →
          (n₀.run config calls').tracker.map (·.driven)
            = (n₀.run config calls).tracker.map (·.driven) := by
  have hpaired : n₀.IsPaired := by
    have hafter := (h.handle now (.areaLoaded area ranks)).isPaired
    rwa [hload] at hafter
  obtain ⟨htracker, htold⟩ : n₀.tracker = some (.ofArea area ranks)
      ∧ ∀ k : Sketch, n₀.IsKnownTo (k.addAll shown) := by
    rcases n.handle_cases config now (.areaLoaded area ranks) with
      ⟨o, hok, heq⟩ | ⟨refusal, -, heq⟩ <;> rw [hload] at heq <;> cases heq
    obtain ⟨route, smoother, -, -, rfl⟩ := respond_areaLoaded_iff.1 hok
    exact ⟨rfl, fun k => isTold_load _ k area ranks route smoother⟩
  have hstart : n₀.Surveys config.coverage (.ofArea area ranks) [] :=
    ⟨_, htracker, Tracker.surveys_nil _⟩
  obtain ⟨t, ht, hsurveys⟩ := surveys_run calls hstart hkeeps
  rw [List.nil_append] at hsurveys
  refine ⟨⟨t, ht, hsurveys.driven, fun k => ?_⟩, fun calls' hkeeps' hpoints => ?_⟩
  · rw [Sketch.addAll_append]
    exact isKnownTo_run calls (htold k) hpaired t ht
  · obtain ⟨t', ht', hsurveys'⟩ := surveys_run calls' hstart hkeeps'
    rw [List.nil_append] at hsurveys'
    have hdriven : t'.driven = t.driven := by
      ext id
      simp only [hsurveys'.driven, hsurveys.driven, hpoints]
    rw [ht, ht', Option.map_some, Option.map_some, hdriven]

end Navigator

namespace Trial

def loaded : Navigator ℚ := (Navigator.fresh.handle .standard 0 (.areaLoaded (area "north"))).2

theorem load_north : ∃ shown,
    Navigator.fresh.handle .standard 0 (.areaLoaded (area "north")) = (.ok shown, loaded) := by
  have hok : (Navigator.fresh.handle .standard 0 (.areaLoaded (area "north"))).1.isOk = true := by
    decide +kernel
  rcases hresult : (Navigator.fresh.handle .standard 0 (.areaLoaded (area "north"))).1 with _ | shown
  · rw [hresult] at hok
    cases hok
  · exact ⟨shown, Prod.ext hresult rfl⟩

/-- A driver starts at the first segment; storing it fails, and a fix that is none is passed
over. -/
def survey : List (Int × Event ℚ) :=
  [(0, .begin), (0, seen 0 0), (2000, .tick), (2000, .flushed "north" false),
    (2500, seen 100000 2500)]

end Trial

namespace Navigator

/-- The first segment is then driven, and a listener knows that. -/
theorem surveys_north : ∃ shown t,
    fresh.handle .standard 0 (.areaLoaded (Trial.area "north")) = (.ok shown, Trial.loaded)
      ∧ (Trial.loaded.run .standard Trial.survey).tracker = some t ∧ 1 ∈ t.driven
      ∧ Sketch.addAll ⟨∅, ∅⟩ (shown ++ (Trial.loaded.log .standard Trial.survey).flatMap
          Answer.effects) = ⟨t.driven, t.undriven⟩ := by
  have hok : (fresh.handle .standard 0 (.areaLoaded (Trial.area "north"))).1.isOk = true := by
    decide +kernel
  obtain ⟨shown, hload⟩ : ∃ shown,
      fresh.handle .standard 0 (.areaLoaded (Trial.area "north")) = (.ok shown, Trial.loaded) := by
    rcases hresult : (fresh.handle .standard 0 (.areaLoaded (Trial.area "north"))).1 with _ | shown
    · rw [hresult] at hok
      cases hok
    · exact ⟨shown, Prod.ext hresult rfl⟩
  have hkeeps : ∀ a ∈ Trial.loaded.log .standard Trial.survey, ¬ a.Unloads := by decide +kernel
  obtain ⟨⟨t, ht, hdriven, htold⟩, -⟩ :=
    Reachable.surveys Reachable.fresh hload Trial.survey hkeeps
  have hseen : Trial.place 0 ∈
      (Trial.loaded.log .standard Trial.survey).filterMap (·.surveyed? .standard) := by
    decide +kernel
  have hnear : 1 ∈ (Tracker.ofArea (Trial.area "north")).touched Config.Coverage.standard
      (Trial.place 0) := by
    decide +kernel
  obtain ⟨hundriven, hnear⟩ := Tracker.mem_touched.1 hnear
  exact ⟨shown, t, hload, ht, (hdriven 1).2 (.inr ⟨hundriven, _, hseen, hnear⟩), htold _⟩

end Navigator

end Roadbook
