import Roadbook.Proofs.Guidance.Requests
import Roadbook.Proofs.Guidance.Run

/-!
# Directions and the answers to them

A `Desk` is a navigator with the service that answers its requests for directions, each once at the
most, at any time and in any order. An answer is told from others by the id of its request, and
every session counts its ids anew. So a path is shown for the request it was found for just if the
answer is not that of an earlier session which gave the same id (`Desk.IsStray`,
`Desk.Reachable.directions`); in any case there is one path for a request at the most.
-/

namespace Roadbook

def Effect.isGuidance {α : Type} : Effect α → Bool
  | .guidancePath _ _ _ => true
  | _ => false

theorem Effect.IsQuiet.isGuidance {α : Type} {e : Effect α} (h : e.IsQuiet) :
    e.isGuidance = false := by
  cases e <;> first | rfl | exact h.elim

theorem Effect.IsOwn.isGuidance {α : Type} {e : Effect α} (h : e.IsOwn) :
    e.isGuidance = false := by
  cases e <;> first | rfl | exact h.elim

def Event.isDirections {α : Type} : Event α → Bool
  | .directions _ _ => true
  | _ => false

variable {α : Type} [Scalar α] [Geodesy α] {config : Config α} {now : Int}

namespace Outcome

variable {o o' : Outcome α}

def IsUnguided {α : Type} (o : Outcome α) : Prop := ∀ e ∈ o.effects, e.isGuidance = false

omit [Scalar α] [Geodesy α] in
theorem IsUnguided.emit (h : o.IsUnguided) {e : Effect α} (he : e.isGuidance = false) :
    (o.emit e).IsUnguided := by
  intro e' hmem
  rcases List.mem_append.1 hmem with hmem | hmem
  · exact h e' hmem
  · rwa [List.mem_singleton.1 hmem]

theorem Act.isUnguided (hact : Act config now o o') (h : o.IsUnguided) : o'.IsUnguided := by
  cases hact with
  | guide hs hd =>
    obtain ⟨new, heq, hnew⟩ := hd.effects
    rw [IsUnguided, withDispatch, heq]
    exact List.forall_mem_append.2 ⟨h, fun e he => (hnew e he).isGuidance⟩
  | aside => exact h
  | aim => exact h.emit rfl
  | @flush _ tracker =>
    have hkept : (o.withTracker (some tracker)).IsUnguided := h
    exact hkept.emit rfl
  | @promote _ tracker =>
    have hkept : (o.withTracker (some tracker)).IsUnguided := h
    exact hkept.emit rfl
  | drop =>
    have hkept : ((o.withSession none).withTracker none).IsUnguided := h
    rcases (o.withSession none).drain_cases with ⟨heq, -⟩ | ⟨t, -, heq⟩ <;> rw [heq]
    · exact hkept
    · exact hkept.emit rfl
  | load hs ht area ranks route smoother =>
    have hkept : ((o.withSession (some (.ofRoute area.name route smoother))).withTracker
      (some (.ofArea area ranks))).IsUnguided := h
    unfold Outcome.load
    refine (((hkept.emit ?_).emit ?_).emit ?_).emit ?_ <;> rfl

theorem Acts.isUnguided (hacts : Acts config now o o') (h : o.IsUnguided) : o'.IsUnguided := by
  induction hacts with
  | refl => exact h
  | tail _ hact ih => exact hact.isUnguided ih

omit [Geodesy α] in
theorem isKnown_onFlushed {g : Ledger α} (h : o.IsKnown g) (area : String) (success : Bool) :
    (o.onFlushed config now area success).IsKnown g := by
  rcases o.onFlushed_cases config now area success with ⟨t, timers, -, -, heq⟩ | ⟨-, heq⟩ <;>
    rw [heq] <;> exact h

end Outcome

namespace Navigator

variable {n : Navigator α} {g : Ledger α}

/-- The effects that the caller is told of: none when the event is refused. -/
def told (config : Config α) (n : Navigator α) (now : Int) (event : Event α) : List (Effect α) :=
  match (n.handle config now event).1 with
  | .ok effects => effects
  | .error _ => []

theorem told_cases (config : Config α) (n : Navigator α) (now : Int) (event : Event α) :
    (∃ o, respond config now (n.due config now) event = .ok o
        ∧ (n.handle config now event).2 = o.navigator ∧ n.told config now event = o.effects)
      ∨ (n.handle config now event).2 = (n.due config now).navigator
        ∧ n.told config now event = [] := by
  unfold told
  rcases handle_cases config n now event with ⟨o, hok, heq⟩ | ⟨refusal, -, heq⟩ <;> rw [heq]
  · exact .inl ⟨o, hok, rfl, rfl⟩
  · exact .inr ⟨rfl, rfl⟩

theorem isKnown_handle (h : (⟨n, []⟩ : Outcome α).IsKnown g) (hp : n.IsPaired) (event : Event α) :
    (⟨(n.handle config now event).2, n.told config now event⟩ : Outcome α).IsKnown g := by
  have hdue : (n.due config now).IsKnown g := (acts_due n).isKnown h
  rcases told_cases config n now event with ⟨o, hok, hn, htold⟩ | ⟨hn, htold⟩ <;> rw [hn, htold]
  · show o.IsKnown g
    cases event with
    | directions id found =>
      cases hok
      rcases hs : (n.due config now).navigator.session with _ | s
      · rwa [Outcome.inSession_none hs]
      · rw [Outcome.inSession_some hs]
        refine Outcome.isKnown_withDispatch ?_
        have hd := Outcome.isKnown_dispatch hdue hs
        rcases ((n.due config now).dispatch s).resolve_cases id found with
          heq | ⟨r, -, -, -, heq⟩ <;> rw [heq]
        · exact hd
        · simp only [Dispatch.IsKnown, Dispatch.emit, Dispatch.withSession, Ledger.addAll_concat]
          refine ⟨hd.1, fun r hr => ?_, hd.2.fresh⟩
          cases hr
    | flushed area success =>
      cases hok
      exact Outcome.isKnown_onFlushed hdue area success
    | _ => exact (Outcome.acts_respond (hp.due config now) hok (by simp) (by simp)).isKnown hdue
  · -- The effects that nobody is told of are none that the ledger would take down.
    have hquiet : ∀ e ∈ (n.due config now).effects, e.IsQuiet := fun e he =>
      (effects_due config now n e he).isQuiet
    simp only [Outcome.IsKnown, Ledger.addAll_of_isQuiet hquiet] at hdue
    exact hdue

theorem isUnguided_due (config : Config α) (now : Int) (n : Navigator α) :
    (n.due config now).IsUnguided :=
  fun e he => (effects_due config now n e he).isQuiet.isGuidance

theorem unguided_told (hp : n.IsPaired) {event : Event α} (hevent : event.isDirections = false) :
    ∀ e ∈ n.told config now event, e.isGuidance = false := by
  have hdue := isUnguided_due config now n
  rcases told_cases config n now event with ⟨o, hok, -, htold⟩ | ⟨-, htold⟩ <;> rw [htold]
  · cases event with
    | directions id found => exact absurd hevent (by simp [Event.isDirections])
    | flushed area success =>
      cases hok
      rwa [Outcome.onFlushed_effects]
    | _ => exact (Outcome.acts_respond (hp.due config now) hok (by simp) (by simp)).isUnguided hdue
  · simp

/-- An answer shows a path just if a request of its id is pending, after the effects of the tasks
that were due. -/
theorem told_directions_cases (h : (⟨n, []⟩ : Outcome α).IsKnown g) (config : Config α) (now : Int)
    (id : Nat) (found : Option (List (Point α))) :
    (∃ r, n.pending? = some r ∧ r.id = id ∧ n.told config now (.directions id found)
        = (n.due config now).effects ++ [.guidancePath r.purpose (Dispatch.path r found).1
          (Dispatch.path r found).2])
      ∨ (∀ r, n.pending? = some r → r.id ≠ id)
        ∧ n.told config now (.directions id found) = (n.due config now).effects := by
  have hstill := isStill_due config now fun s hs => (h.2 s hs).isFitting
  have htold : n.told config now (.directions id found)
      = ((n.due config now).inSession (·.resolve id found)).effects := rfl
  rw [htold, ← hstill.pending]
  rcases hs : (n.due config now).navigator.session with _ | s
  · refine .inr ⟨fun r hr => ?_, by rw [Outcome.inSession_none hs]⟩
    simp [pending?, hs] at hr
  · rw [Outcome.inSession_some hs, pending?_of_session hs]
    rcases hr : s.pending with _ | r
    · exact .inr ⟨by simp, by simp [Dispatch.resolve, Outcome.dispatch, Outcome.withDispatch, hr]⟩
    · have hphase := (hstill.fitting s hs r hr).symm
      by_cases hid : r.id = id
      · refine .inl ⟨r, rfl, hid, ?_⟩
        simp [Dispatch.resolve, Outcome.dispatch, Outcome.withDispatch, Dispatch.emit,
          Dispatch.withSession, hr, hid, hphase]
      · refine .inr ⟨by simpa using hid, ?_⟩
        simp [Dispatch.resolve, Outcome.dispatch, Outcome.withDispatch, hr, hid]

end Navigator

/-- A navigator with those who find directions for it. -/
structure Desk (α : Type) where
  navigator : Navigator α
  ledger : Ledger α
  /-- The places in the ledger of the requests that have been answered. -/
  answered : List Nat
  /-- The places of those with whose answers a path was shown, once for each path. -/
  shown : List Nat

namespace Desk

/-- What can happen next: an event other than an answer, or an answer to a request in the ledger. -/
inductive Move (α : Type) where
  | call (now : Int) (event : Event α)
  | answer (now : Int) (place : Nat) (found : Option (List (Point α)))

def start : Desk α := ⟨.fresh, .empty, [], []⟩

/-- The effects told and the desk after a move, unless the move is impossible. -/
def step (config : Config α) (k : Desk α) : Move α → Option (List (Effect α) × Desk α)
  | .call now event =>
    if event.isDirections then none
    else
      let effects := k.navigator.told config now event
      some (effects, { k with
        navigator := (k.navigator.handle config now event).2
        ledger := k.ledger.addAll effects })
  | .answer now place found =>
    match k.ledger.asked[place]? with
    | none => none
    | some (_, r) =>
      if place ∈ k.answered then none
      else
        let effects := k.navigator.told config now (.directions r.id found)
        some (effects, {
          navigator := (k.navigator.handle config now (.directions r.id found)).2
          ledger := k.ledger.addAll effects
          answered := place :: k.answered
          shown := (effects.filter Effect.isGuidance).map (fun _ => place) ++ k.shown })

inductive Reachable (config : Config α) : Desk α → Prop
  | start : Reachable config start
  | step {k k' : Desk α} {move : Move α} {effects : List (Effect α)} (h : Reachable config k)
    (hstep : k.step config move = some (effects, k')) : Reachable config k'

def run (config : Config α) (k : Desk α) (moves : List (Move α)) : Desk α :=
  moves.foldl (fun k move => ((k.step config move).map (·.2)).getD k) k

theorem Reachable.run {k : Desk α} (h : Reachable config k) :
    ∀ moves, Reachable config (k.run config moves)
  | [] => h
  | move :: moves => by
    rcases hstep : k.step config move with _ | ⟨effects, k'⟩
    · have heq : k.run config (move :: moves) = k.run config moves := by simp [Desk.run, hstep]
      rw [heq]
      exact Reachable.run h moves
    · have heq : k.run config (move :: moves) = k'.run config moves := by simp [Desk.run, hstep]
      rw [heq]
      exact Reachable.run (h.step hstep) moves

/-- A path is shown by the answer to the request that is pending in the session that made it, and it
is the path found, if it has two points, or else the straight line between the request's own. -/
def IsFaithful (k : Desk α) (move : Move α) (effects : List (Effect α)) : Prop :=
  ∀ purpose line straight, .guidancePath purpose line straight ∈ effects →
    ∃ now place found r, move = .answer now place found
      ∧ k.ledger.asked[place]? = some (k.ledger.session, r)
      ∧ k.navigator.pending? = some r
      ∧ ((∃ path, found = some path ∧ 2 ≤ path.length ∧ line = path)
        ∨ (∀ path, found = some path → path.length < 2) ∧ line = [r.start, r.finish])

/-- The answer to a request of another session, when one with the same id is pending. -/
def IsStray (k : Desk α) : Move α → Prop
  | .call _ _ => False
  | .answer _ place _ => ∃ number r r', k.ledger.asked[place]? = some (number, r)
      ∧ number ≠ k.ledger.session ∧ k.navigator.pending? = some r' ∧ r'.id = r.id

/-- The ledger knows the session that is loaded, nothing was answered twice, and paths were shown
with answers only, one with each at the most. -/
structure IsSound (k : Desk α) : Prop where
  known : (⟨k.navigator, []⟩ : Outcome α).IsKnown k.ledger
  paired : k.navigator.IsPaired
  answered : k.answered.Nodup
  shown : k.shown.Sublist k.answered

variable {k k' : Desk α} {move : Move α} {effects : List (Effect α)}

omit [Scalar α] [Geodesy α] in
theorem isSound_start : (start : Desk α).IsSound :=
  ⟨⟨Ledger.isInOrder_empty, by rintro _ ⟨⟩⟩, rfl, .nil, .slnil⟩

theorem shown_answer {n : Navigator α} {g : Ledger α} (h : (⟨n, []⟩ : Outcome α).IsKnown g)
    (id place : Nat) (found : Option (List (Point α))) :
    (((n.told config now (.directions id found)).filter Effect.isGuidance).map
      fun _ => place).Sublist [place] := by
  have hdue : (n.due config now).effects.filter Effect.isGuidance = [] :=
    List.filter_eq_nil_iff.2 fun e he => by simp [n.isUnguided_due config now e he]
  rcases n.told_directions_cases h config now id found with ⟨r, -, -, heq⟩ | ⟨-, heq⟩ <;> rw [heq]
  · rw [List.filter_append, hdue]
    exact .refl _
  · rw [hdue]
    exact List.nil_sublist _

theorem IsSound.step (h : k.IsSound) (hstep : k.step config move = some (effects, k')) :
    k'.IsSound := by
  cases move with
  | call now event =>
    simp only [Desk.step] at hstep
    split_ifs at hstep
    cases hstep
    exact ⟨Navigator.isKnown_handle h.known h.paired event, h.paired.handle config now event,
      h.answered, h.shown⟩
  | answer now place found =>
    simp only [Desk.step] at hstep
    split at hstep
    · cases hstep
    · rename_i r _
      split_ifs at hstep with hplace
      cases hstep
      exact ⟨Navigator.isKnown_handle h.known h.paired (.directions r.id found),
        h.paired.handle config now (.directions r.id found),
        List.nodup_cons.2 ⟨hplace, h.answered⟩, (shown_answer h.known _ place found).append h.shown⟩

theorem Reachable.isSound (h : Reachable config k) : k.IsSound := by
  induction h with
  | start => exact isSound_start
  | step _ hstep ih => exact ih.step hstep

omit [Scalar α] [Geodesy α] in
theorem path_spec (r : Request α) (found : Option (List (Point α))) :
    (∃ path, found = some path ∧ 2 ≤ path.length ∧ (Dispatch.path r found).1 = path)
      ∨ (∀ path, found = some path → path.length < 2)
        ∧ (Dispatch.path r found).1 = [r.start, r.finish] := by
  unfold Dispatch.path
  split
  · rename_i path
    split_ifs with hlong
    · exact .inl ⟨path, rfl, hlong, rfl⟩
    · refine .inr ⟨?_, rfl⟩
      rintro _ ⟨⟩
      omega
  · exact .inr ⟨by simp, rfl⟩

omit [Scalar α] [Geodesy α] in
theorem IsSound.asked_of_pending (h : k.IsSound) {r : Request α}
    (hr : k.navigator.pending? = some r) : (k.ledger.session, r) ∈ k.ledger.asked := by
  rcases hs : k.navigator.session with _ | s
  · simp [Navigator.pending?, hs] at hr
  · rw [Navigator.pending?_of_session hs] at hr
    exact ((h.known.2 s hs).pending r hr).1

/-- The answer to a request of an id that is pending is faithful if it is to that request. -/
theorem IsSound.isFaithful_iff (h : k.IsSound) (hstep : k.step config move = some (effects, k')) :
    k.IsFaithful move effects ↔ ¬ k.IsStray move := by
  cases move with
  | call now event =>
    simp only [Desk.step] at hstep
    split_ifs at hstep with hevent
    cases hstep
    refine iff_of_true (fun purpose line straight hmem => ?_) id
    have hno := Navigator.unguided_told h.paired (by simpa using hevent) _ hmem
    simp [Effect.isGuidance] at hno
  | answer now place found =>
    simp only [Desk.step] at hstep
    split at hstep
    · cases hstep
    · rename_i number r hplace
      split_ifs at hstep
      cases hstep
      have hdue := k.navigator.isUnguided_due config now
      rcases k.navigator.told_directions_cases h.known config now r.id found with
        ⟨r', hpending, hid, heq⟩ | ⟨hno, heq⟩ <;> rw [heq]
      · constructor
        · rintro hfaithful ⟨number', _, _, hplace', hother, -⟩
          obtain ⟨_, _, _, _, hmove, hown, -⟩ :=
            hfaithful r'.purpose _ _ (List.mem_append_right _ List.mem_cons_self)
          cases hmove
          rw [hplace] at hplace' hown
          cases hplace'
          cases hown
          exact hother rfl
        · intro hstray purpose line straight hmem
          have hown : number = k.ledger.session := by
            by_contra hother
            exact hstray ⟨number, r, r', hplace, hother, hpending, hid⟩
          rw [hown] at hplace
          have hsame : r' = r :=
            h.known.1.unique (h.asked_of_pending hpending) (List.mem_of_getElem? hplace) hid
          rw [hsame] at hpending hmem
          rcases List.mem_append.1 hmem with hmem | hmem
          · simpa [Effect.isGuidance] using hdue _ hmem
          · cases List.mem_singleton.1 hmem
            exact ⟨now, place, found, r, rfl, hplace, hpending, path_spec r found⟩
      · refine iff_of_true (fun purpose line straight hmem => ?_) ?_
        · simpa [Effect.isGuidance] using hdue _ hmem
        · rintro ⟨_, _, r', hplace', -, hpending, hid⟩
          rw [hplace] at hplace'
          cases hplace'
          exact hno r' hpending hid

/-- For a request one path is shown at the most. Every path is shown for the request it was found
for, but for those that come with stray answers. -/
theorem Reachable.directions (h : Reachable config k) :
    k.shown.Nodup ∧ ∀ move effects k', k.step config move = some (effects, k') →
      (k.IsFaithful move effects ↔ ¬ k.IsStray move) :=
  ⟨h.isSound.answered.sublist h.isSound.shown, fun _ _ _ hstep => h.isSound.isFaithful_iff hstep⟩

end Desk

namespace Trial

/-- A driver away from the start of the road has begun, and directions there are asked for. -/
def asking : List (Desk.Move ℚ) :=
  [.call 0 (.areaLoaded (area "north")), .call 0 (seen (-5) 0), .call 0 .begin]

/-- Another area is loaded before the answer, and the driver begins there from somewhere else. -/
def askingTwice : List (Desk.Move ℚ) :=
  asking ++ [.call 0 (.areaLoaded (area "south")), .call 0 (seen (-7) 0), .call 0 .begin]

def answer : Desk.Move ℚ := .answer 0 0 (some [place (-5), place 0])

end Trial

namespace Desk

open Trial

/-- The answer that is waited for is faithful. -/
theorem directions_asking : ∃ effects k',
    (start.run .standard asking).step .standard answer = some (effects, k')
      ∧ (effects.any Effect.isGuidance) = true
      ∧ (start.run .standard asking).IsFaithful answer effects := by
  have hsome : ((start.run .standard asking).step .standard answer).map
      (fun x => x.1.any Effect.isGuidance) = some true := by decide +kernel
  obtain ⟨⟨effects, k'⟩, hstep, hshown⟩ := Option.map_eq_some_iff.1 hsome
  refine ⟨effects, k', hstep, hshown, ?_⟩
  have hreachable : Reachable .standard (start.run .standard asking) := .run .start asking
  obtain ⟨-, hfaithful⟩ := Reachable.directions hreachable
  refine (hfaithful _ _ _ hstep).2 ?_
  rintro ⟨number, r, -, hplace, hother, -⟩
  have hown : (start.run .standard asking).ledger.asked[0]?.map (·.1)
      = some (start.run .standard asking).ledger.session := by decide +kernel
  rw [hplace] at hown
  exact hother (Option.some.inj hown)

/-- Once another area is loaded, the same answer is taken for the one to its request. -/
theorem stray_answer : ¬ ∀ (config : Config ℚ) (k k' : Desk ℚ) (move : Move ℚ)
    (effects : List (Effect ℚ)), Reachable config k → k.step config move = some (effects, k') →
    k.IsFaithful move effects := by
  intro hfaithful
  have hsome : ((start.run .standard askingTwice).step .standard answer).map
      (fun x => x.1.any Effect.isGuidance) = some true := by decide +kernel
  obtain ⟨⟨effects, k'⟩, hstep, hshown⟩ := Option.map_eq_some_iff.1 hsome
  obtain ⟨e, he, hguidance⟩ := List.any_eq_true.1 hshown
  cases e with
  | guidancePath purpose line straight =>
    obtain ⟨_, _, _, r, hmove, hplace, -⟩ :=
      hfaithful _ _ _ _ _ (Reachable.start.run askingTwice) hstep purpose line straight he
    cases hmove
    have hother : (start.run .standard askingTwice).ledger.asked[0]?.map (·.1)
        ≠ some (start.run .standard askingTwice).ledger.session := by decide +kernel
    rw [hplace] at hother
    exact hother rfl
  | _ => cases hguidance

end Desk

end Roadbook
