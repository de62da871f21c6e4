import Roadbook.Proofs.Guidance.Offering
import Roadbook.Proofs.Replay.Clock

/-!
# Offers that are accepted of their own accord

`Replay.runCalls` are the calls of a whole replay. When every offer is to be accepted, a call
either leaves nothing to be accepted (`Replay.IsCalm`), or it was a fix that told of an offer, and
to accept that one is the next thing to do (`Replay.IsOffered`). On the way to a fix the queue is
emptied, so every fix finds the replay calm (`Replay.accepts_offers`).
-/

namespace Roadbook

open Effect

variable {σ α : Type}

/-- The effect shows the way to a point on offer. -/
def Effect.isWayToOffer : Effect α → Bool
  | .guidancePath .resume _ _ => true
  | _ => false

/-- True of hosts whatever they store, and whatever they show but the way to a point on offer. -/
structure Rig.Spares (rig : Rig σ α) (Q : σ → Prop) : Prop where
  persist : ∀ {h : σ} (batch : Batch), Q h → Q (rig.persist h batch).2
  remember : ∀ {h : σ} (area : String), Q h → Q (rig.rememberArea h area)
  display : ∀ {h : σ} {effect : Effect α}, effect.isWayToOffer = false → Q h →
    Q (rig.display h effect)

theorem Rig.spares_logged (rig : Rig σ α) :
    rig.logged.Spares fun h => ∀ e ∈ h.2, e.isWayToOffer = false where
  persist _ h := h
  remember _ h := h
  display he h := List.forall_mem_append.2 ⟨h, List.forall_mem_singleton.2 he⟩

namespace Navigator

variable [Scalar α] [Geodesy α] {config : Config α} {now : Int} {n : Navigator α}

/-- The point on offer is taken up: guidance goes on, with progress at that point. -/
def TakesUp (config : Config α) (now : Int) (n : Navigator α) : Prop :=
  ∃ s m effects n' s', n.session = some s ∧ s.phase = .resume ∧ s.offer = some m
    ∧ n.handle config now .acceptOffer = (.ok effects, n') ∧ n'.session = some s'
    ∧ s'.phase = .active ∧ s'.progress = m.along

/-- Accepting is no more than a time at which tasks may be due. They leave the session alone. -/
structure Ignores (config : Config α) (now : Int) (n : Navigator α) : Prop where
  handle : n.handle config now .acceptOffer
    = (.ok (n.due config now).effects, (n.due config now).navigator)
  session : (n.due config now).navigator.session = n.session

theorem Reachable.takesUp (h : Reachable config n) (now : Int) (hphase : n.phase = .resume) :
    n.TakesUp config now := by
  rcases hs : n.session with _ | s
  · simp [phase, hs] at hphase
  · simp only [phase, hs] at hphase
    obtain ⟨m, hm⟩ := Option.isSome_iff_exists.1 ((h.offersWell hs).offered.2 hphase)
    obtain ⟨effects, n', s', hok, hs', hactive, hprogress⟩ :=
      handle_acceptOffer config now hs hphase hm
    exact ⟨s, m, effects, n', s', hs, hphase, hm, hok, hs', hactive, hprogress⟩

theorem ignores_of_offRoute (config : Config α) (now : Int) (hphase : n.phase = .offRoute) :
    n.Ignores config now := by
  refine ⟨handle_acceptOffer_of_ne config now (by simp [hphase]), ?_⟩
  rcases hs : n.session with _ | s
  · simp [phase, hs] at hphase
  · simp only [phase, hs] at hphase
    rw [← hs]
    exact (session_due hs (by simp [hphase])).trans hs.symm

/-- Right after a call that has left the driver off the route nothing is due, where batches are put
off at all and nothing has overflowed. -/
theorem Reachable.accepts_nothing (h : Reachable config n) {event : Event α}
    (hphase : (n.handle config now event).2.phase = .offRoute) (hquiet : 0 < config.coverage.quiet)
    (hrange : ¬ n.Overflows config now event) :
    (n.handle config now event).2.handle config now .acceptOffer
      = (.ok [], (n.handle config now event).2) := by
  rw [handle_acceptOffer_of_ne config now (by simp [hphase]),
    due_after_handle h hquiet hrange (by simp [hphase])]

/-- Once an offer is accepted it is gone. -/
theorem Reachable.phase_acceptOffer (h : Reachable config n) :
    (n.handle config now .acceptOffer).2.phase ≠ .resume := by
  by_cases hphase : n.phase = .resume
  · obtain ⟨s, m, effects, n', s', -, -, -, hok, hs', hactive, -⟩ := h.takesUp now hphase
    simp [hok, phase, hs', hactive]
  · exact phase_handle hphase (n.offers_told config now fun _ h => by cases h)

/-- Where nothing is on offer no way to it is shown, and accepting shows no way at all. -/
theorem Reachable.not_isWayToOffer (h : Reachable config n) {event : Event α}
    (hphase : n.phase ≠ .resume ∨ event = .acceptOffer) :
    ∀ e ∈ n.told config now event, e.isWayToOffer = false := by
  intro e he
  by_contra hway
  have hway : e.isWayToOffer = true := by simpa using hway
  rcases hphase with hphase | rfl
  · cases e with
    | guidancePath purpose line straight =>
      cases purpose with
      | resume => exact hphase (phase_of_told_resume h.isPaired he)
      | toStart => cases hway
    | _ => cases hway
  · have hno := unguided_told h.isPaired rfl e he
    cases e <;> first | cases hway | cases hno

end Navigator

namespace Replay

variable {rig : Rig σ α} {Q : σ → Prop} {r : Replay σ α}

theorem isOffer_eq_false {e : Effect α} (h : isOffer e = false) : offers [e] = [] := by
  cases e with
  | phaseChanged before after => cases after <;> first | rfl | cases h
  | _ => rfl

/-- What accepts the offers that effects tell of, when every offer is to be accepted. -/
def acceptances (rig : Rig σ α) (effects : List (Effect α)) : List (Event α) :=
  if rig.autoResume then (offers effects).map fun _ => .acceptOffer else []

theorem acceptances_append (rig : Rig σ α) (effects new : List (Effect α)) :
    acceptances rig (effects ++ new) = acceptances rig effects ++ acceptances rig new := by
  unfold acceptances
  split_ifs
  · rw [offers_append, List.map_append]
  · rfl

theorem acceptances_of_offers (rig : Rig σ α) {effects : List (Effect α)}
    (h : offers effects = []) : acceptances rig effects = [] := by
  unfold acceptances
  rw [h, List.map_nil, ite_self]

theorem eq_of_mem_acceptances {rig : Rig σ α} {effects : List (Effect α)} {event : Event α}
    (h : event ∈ acceptances rig effects) : event = .acceptOffer := by
  unfold acceptances at h
  split_ifs at h
  · obtain ⟨-, -, rfl⟩ := List.mem_map.1 h
    rfl
  · cases h

theorem queue_dispatch (rig : Rig σ α) (r : Replay σ α) (effect : Effect α) :
    (r.dispatch rig effect).queue = r.queue ++ acceptances rig [effect] := by
  by_cases hshown : effect.isShown = true
  · rw [dispatch_of_isShown hshown]
    by_cases hoffer : isOffer effect = true
    · rw [hoffer, Bool.and_true]
      cases effect with
      | phaseChanged before after => cases after <;> first | rfl | cases hoffer
      | _ => cases hoffer
    · have hno : isOffer effect = false := by simpa using hoffer
      rw [hno, Bool.and_false, acceptances_of_offers rig (isOffer_eq_false hno)]
      rfl
  · have hnone : offers [effect] = [] := by
      cases effect <;> first | rfl | exact absurd rfl hshown
    rw [acceptances_of_offers rig hnone, List.append_nil]
    cases effect with
    | requestDirections | rememberArea => rfl
    | persist batch last => cases last <;> rfl
    | _ => exact absurd rfl hshown

/-- Nothing joins the queue when effects are carried out but what accepts their offers. -/
theorem queue_dispatches (rig : Rig σ α) : ∀ (effects : List (Effect α)) (r : Replay σ α),
    (effects.foldl (dispatch rig) r).queue = r.queue ++ acceptances rig effects
  | [], r => by
    rw [acceptances_of_offers rig rfl, List.append_nil]
    rfl
  | effect :: effects, r => by
    rw [List.foldl_cons, queue_dispatches rig effects, queue_dispatch, List.append_assoc,
      ← acceptances_append]
    rfl

theorem host_dispatches (hrig : rig.Spares Q) : ∀ (effects : List (Effect α)) {r : Replay σ α},
    Q r.host → (∀ e ∈ effects, e.isWayToOffer = false) →
      Q (effects.foldl (dispatch rig) r).host
  | [], _, h, _ => h
  | effect :: effects, r, h, hspared => by
    obtain ⟨heffect, hspared⟩ := List.forall_mem_cons.1 hspared
    refine host_dispatches hrig effects ?_ hspared
    by_cases hshown : effect.isShown = true
    · rw [dispatch_of_isShown hshown]
      exact hrig.display heffect h
    · cases effect with
      | requestDirections request => exact h
      | persist batch last =>
        cases last with
        | false => exact h
        | true => exact hrig.persist batch h
      | rememberArea area => exact hrig.remember area h
      | _ => exact absurd rfl hshown

theorem performs_host (hrig : rig.Spares Q) : ∀ (done : List (Job α)) {r : Replay σ α},
    Q r.host → Q (done.foldl (perform rig) r).host
  | [], _, h => h
  | .directions _ :: done, _, h => performs_host hrig done h
  | .persist batch :: done, _, h => performs_host hrig done (hrig.persist batch h)

/-- What comes back while jobs are done accepts nothing. -/
theorem wait_queue (rig : Rig σ α) (r : Replay σ α) :
    ∃ replies, (r.wait rig).queue = r.queue ++ replies ∧ .acceptOffer ∉ replies := by
  obtain ⟨outcomes, -, hqueue, hanswers, -⟩ := wait_answers rig r
  refine ⟨_, hqueue, fun haccept => ?_⟩
  obtain ⟨⟨job, event⟩, hmem, rfl⟩ := List.mem_map.1 haccept
  have hanswer := hanswers _ hmem
  cases job with
  | directions request => cases hanswer
  | persist batch =>
    obtain ⟨host, heq⟩ := hanswer
    cases heq

variable [Scalar α] [Geodesy α]

/-- Handling an event tells of what the navigator tells, or the replay halts. -/
theorem handle_told (hgoes : r.halt = none) (rig : Rig σ α) (event : Event α) :
    (∃ r₀ : Replay σ α, r₀.queue = r.queue ∧ r₀.host = r.host
        ∧ r.handle rig event
          = (r.navigator.told rig.config r.clock event).foldl (dispatch rig) r₀)
      ∨ (r.handle rig event).halt ≠ none ∧ (r.handle rig event).queue = r.queue
        ∧ (r.handle rig event).host = r.host := by
  rcases handle_cases hgoes rig event with ⟨effects, n, hcall, -, heq⟩ | ⟨reason, n, -, heq⟩
  · have htold : r.navigator.told rig.config r.clock event = effects := by
      rw [Navigator.told, hcall]
    rw [htold]
    exact .inl ⟨{ r with navigator := n }, rfl, rfl, heq⟩
  · rw [heq]
    exact .inr ⟨Option.some_ne_none _, rfl, rfl⟩

theorem queue_handle_other (rig : Rig σ α) (event : Event α) (hfix : ∀ fix, event ≠ .fix fix) :
    (r.handle rig event).queue = r.queue := by
  by_cases hgoes : r.halt = none
  · rcases handle_told hgoes rig event with ⟨r₀, hqueue, -, htold⟩ | ⟨-, hqueue, -⟩
    · rw [htold, queue_dispatches, acceptances_of_offers rig (Navigator.offers_told _ _ _ hfix),
        hqueue, List.append_nil]
    · exact hqueue
  · rw [handle_of_halt hgoes]

/-- The calls that showing an area comes to. -/
def loadCalls (rig : Rig σ α) (r : Replay σ α) (area : Area α) : List (Int × Event α) :=
  let viewed := r.handle rig (.view ⟨rig.follow, false⟩)
  r.call (.view ⟨rig.follow, false⟩) ++ viewed.call (.areaLoaded area rig.ranks)

/-- The calls made for the events in the queue. -/
def emptyQueueCalls (rig : Rig σ α) : Nat → Replay σ α → List (Int × Event α)
  | 0, _ => []
  | n + 1, r =>
    if r.halt.isSome then []
    else match r.queue with
      | [] => []
      | event :: events =>
        let popped := { r with queue := events }
        popped.call event ++ emptyQueueCalls rig n (popped.handle rig event)

/-- The calls made at the end of a replay. -/
def finishCalls (rig : Rig σ α) (r : Replay σ α) : List (Int × Event α) :=
  (r.wait rig).emptyQueueCalls rig patience ++ ((r.wait rig).emptyQueue rig patience).call .finish

/-- The calls of a whole replay, in order. -/
def runCalls (rig : Rig σ α) (host : σ) (area : Area α) (fixes : List (Fix α)) :
    List (Int × Event α) :=
  let loaded := (start host).load rig area
  (start host).loadCalls rig area
    ++ (loaded.driveCalls rig fixes ++ (loaded.drive rig fixes).finishCalls rig)

/-- The offers told of in a call that follows some others. -/
def offersIn (config : Config α) (before : List (Int × Event α)) (call : Int × Event α) :
    List (Phase × Phase) :=
  offers ((Navigator.run config .fresh before).told config call.1 call.2)

/-- Where times are checked, the last of some calls has not overflowed. -/
def IsHeard (config : Config α) (calls : List (Int × Event α)) : Prop :=
  Scalar.checked α → ∀ past last, calls = past ++ [last] →
    ¬ (Navigator.run config .fresh past).Overflows config last.1 last.2

/-- A fix is taken in while nothing is on offer, and the call after one that told of an offer, and
no other, accepts it, at the same time. There is none after an overflow that is trapped. -/
structure Accords (config : Config α) (before : List (Int × Event α)) (call : Int × Event α) :
    Prop where
  heard : IsHeard config before
  fix : ∀ fix, call.2 = .fix fix → (Navigator.run config .fresh before).phase ≠ .resume
  follows : ∀ past last, before = past ++ [last] → offersIn config past last ≠ [] →
    call = (last.1, .acceptOffer)
  accepts : call.2 = .acceptOffer → ∃ past fix, before = past ++ [(call.1, .fix fix)]
    ∧ offersIn config past (call.1, .fix fix) ≠ []

/-- Nothing is on offer or about to be accepted, and the last call told of no offer. -/
structure IsCalm (config : Config α) (calls : List (Int × Event α)) (r : Replay σ α) : Prop where
  phase : r.navigator.phase ≠ .resume
  queue : .acceptOffer ∉ r.queue
  last : ∀ past last, calls = past ++ [last] → offersIn config past last = []

/-- The last call was a fix that told of an offer, and accepting that is the next thing to do. -/
structure IsOffered (config : Config α) (calls : List (Int × Event α)) (r : Replay σ α) :
    Prop where
  last : ∃ past fix, calls = past ++ [(r.clock, .fix fix)]
    ∧ offersIn config past (r.clock, .fix fix) ≠ []
  queue : ∃ rest, r.queue = .acceptOffer :: rest ∧ .acceptOffer ∉ rest

/-- Some calls that suit each other have led to the replay, and if one more offer was told of it is
about to be accepted, unless the replay has halted. -/
structure IsAccepting (rig : Rig σ α) (Q : σ → Prop) (calls : List (Int × Event α))
    (r : Replay σ α) : Prop where
  navigator : r.navigator = Navigator.run rig.config .fresh calls
  host : Q r.host
  queue : ∀ e ∈ r.queue, e.fix? = none
  suits : ∀ before call after, calls = before ++ call :: after → Accords rig.config before call
  heard : r.halt = none → IsHeard rig.config calls
  stands : r.halt = none → IsCalm rig.config calls r ∨ IsOffered rig.config calls r

variable {calls : List (Int × Event α)}

theorem accords_concat {config : Config α} {last : Int × Event α}
    (h : ∀ before call after, calls = before ++ call :: after → Accords config before call)
    (hlast : Accords config calls last) (before : List (Int × Event α)) (call : Int × Event α)
    (after : List (Int × Event α)) (heq : calls ++ [last] = before ++ call :: after) :
    Accords config before call := by
  rcases List.eq_nil_or_concat' after with rfl | ⟨rest, final, rfl⟩
  · obtain ⟨rfl, hcall⟩ := List.append_inj' heq rfl
    cases hcall
    exact hlast
  · rw [← List.cons_append, ← List.append_assoc] at heq
    exact h before call rest (List.append_inj' heq rfl).1

theorem IsCalm.suits {config : Config α} (h : IsCalm config calls r)
    (hrun : r.navigator = Navigator.run config .fresh calls) (hheard : IsHeard config calls)
    (now : Int) {event : Event α} (hevent : event ≠ .acceptOffer) :
    Accords config calls (now, event) where
  heard := hheard
  fix _ _ := hrun ▸ h.phase
  follows past last heq hoffers := absurd (h.last past last heq) hoffers
  accepts heq := absurd heq hevent

theorem IsOffered.suits {config : Config α} (h : IsOffered config calls r)
    (hheard : IsHeard config calls) : Accords config calls (r.clock, .acceptOffer) := by
  obtain ⟨past, fix, hcalls, hoffers⟩ := h.last
  refine ⟨hheard, nofun, fun past' last heq _ => ?_, fun _ => ⟨past, fix, hcalls, hoffers⟩⟩
  obtain ⟨-, hlast⟩ := List.append_inj' (hcalls.symm.trans heq) rfl
  rw [← (List.cons.inj hlast).1]

namespace IsAccepting

theorem reachable (h : IsAccepting rig Q calls r) :
    Navigator.Reachable rig.config r.navigator := by
  rw [h.navigator]
  exact .run .fresh calls

/-- What changes neither the navigator nor the clock, and has nothing accepted. -/
theorem wait (hrig : rig.Spares Q) (h : IsAccepting rig Q calls r) :
    IsAccepting rig Q calls (r.wait rig) := by
  have hstays := stays_wait rig r
  obtain ⟨replies, hqueue, hreplies⟩ := wait_queue rig r
  refine ⟨hstays.navigator.trans h.navigator, performs_host hrig _ h.host,
    hstays.forall_queue (fun _ => Event.IsReply.fix?_eq_none) h.queue, h.suits,
    hstays.halt ▸ h.heard, fun hgoes => ?_⟩
  rcases h.stands (hstays.halt ▸ hgoes) with hcalm | ⟨hlast, rest, hrest, hno⟩
  · refine .inl ⟨?_, ?_, hcalm.last⟩
    · rw [hstays.navigator]
      exact hcalm.phase
    · rw [hqueue, List.mem_append, not_or]
      exact ⟨hcalm.queue, hreplies⟩
  · refine .inr ⟨?_, rest ++ replies, ?_, ?_⟩
    · rwa [hstays.clock]
    · rw [hqueue, hrest]
      rfl
    · rw [List.mem_append, not_or]
      exact ⟨hno, hreplies⟩

theorem haltWith (h : IsAccepting rig Q calls r) (halt : Halt α) :
    IsAccepting rig Q calls (r.haltWith halt) :=
  { h with
    heard := fun hgoes => nomatch hgoes
    stands := fun hgoes => nomatch hgoes }

/-- The clock moves on only while nothing is about to be accepted. -/
theorem moveTo (h : IsAccepting rig Q calls r) (hcalm : IsCalm rig.config calls r) (now : Int) :
    IsAccepting rig Q calls { r with clock := now } :=
  { h with stands := fun _ => .inl { hcalm with } }

/-- A call without an offer, and one with which nothing stays on offer, leaves the replay calm. A
call with an offer is one of a fix. -/
theorem handle (hauto : rig.autoResume = true) (hrig : rig.Spares Q)
    (h : IsAccepting rig Q calls r) {popped : Replay σ α} (hgoes : popped.halt = none)
    (hsame : popped.navigator = r.navigator ∧ popped.host = r.host)
    (hqueue : ∀ e ∈ popped.queue, e.fix? = none ∧ e ≠ .acceptOffer) {event : Event α}
    (hsuits : Accords rig.config calls (popped.clock, event))
    (hphase : r.navigator.phase ≠ .resume ∨ event = .acceptOffer)
    (hfix : popped.queue = [] ∨ ∀ fix, event ≠ .fix fix) :
    IsAccepting rig Q (calls ++ [(popped.clock, event)]) (popped.handle rig event)
      ∧ (offersIn rig.config calls (popped.clock, event) = [] →
        IsCalm rig.config (calls ++ [(popped.clock, event)]) (popped.handle rig event)) := by
  obtain ⟨hnavigator, hclock, hfixes⟩ := handled hgoes rig event
  have htold : ((popped.handle rig event).queue = popped.queue
        ++ acceptances rig (r.navigator.told rig.config popped.clock event)
      ∨ (popped.handle rig event).halt ≠ none ∧ (popped.handle rig event).queue = popped.queue)
      ∧ Q (popped.handle rig event).host := by
    have hhost : Q popped.host := by
      rw [hsame.2]
      exact h.host
    rcases handle_told hgoes rig event with ⟨r₀, hqueue₀, hhost₀, heq⟩ | ⟨hhalted, hkept, hhost₀⟩
    · rw [hsame.1] at heq
      rw [heq, queue_dispatches, hqueue₀]
      exact ⟨.inl rfl, host_dispatches hrig _ (hhost₀ ▸ hhost)
        (h.reachable.not_isWayToOffer hphase)⟩
    · exact ⟨.inr ⟨hhalted, hkept⟩, hhost₀ ▸ hhost⟩
  rw [acceptances, if_pos hauto] at htold
  rw [hsame.1] at hnavigator
  have hoffers : offers (r.navigator.told rig.config popped.clock event)
      = offersIn rig.config calls (popped.clock, event) := by
    rw [h.navigator]
    rfl
  have hrun : Navigator.run rig.config .fresh (calls ++ [(popped.clock, event)])
      = (r.navigator.handle rig.config popped.clock event).2 := by
    rw [Navigator.run, List.foldl_append, h.navigator]
    rfl
  have hcalm : offersIn rig.config calls (popped.clock, event) = [] →
      IsCalm rig.config (calls ++ [(popped.clock, event)]) (popped.handle rig event) := by
    intro hnone
    refine ⟨?_, ?_, fun past last heq => ?_⟩
    · rw [hnavigator]
      rcases hphase with hphase | rfl
      · exact Navigator.phase_handle hphase (hoffers.trans hnone)
      · exact h.reachable.phase_acceptOffer
    · rw [hoffers, hnone, List.map_nil, List.append_nil] at htold
      rw [htold.1.elim id And.right]
      exact fun hmem => (hqueue _ hmem).2 rfl
    · obtain ⟨rfl, hlast⟩ := List.append_inj' heq rfl
      rw [← (List.cons.inj hlast).1]
      exact hnone
  refine ⟨⟨hnavigator.trans hrun.symm, htold.2, hfixes fun e he => (hqueue e he).1,
    accords_concat h.suits hsuits, fun hgone hchecked past last heq => ?_, fun hgone => ?_⟩, hcalm⟩
  · obtain ⟨rfl, hlast⟩ := List.append_inj' heq rfl
    obtain ⟨-, -, -, hfits, -⟩ := ok_of_handle hgone
    rw [← (List.cons.inj hlast).1, ← h.navigator, ← hsame.1]
    exact hfits hchecked
  · have htold := htold.1.resolve_right fun hhalted => hhalted.1 hgone
    by_cases hnone : offersIn rig.config calls (popped.clock, event) = []
    · exact .inl (hcalm hnone)
    · have hno : ¬ ∀ fix, event ≠ .fix fix :=
        fun hno => hnone (hoffers.symm.trans (r.navigator.offers_told rig.config _ hno))
      obtain ⟨fix, rfl⟩ : ∃ fix, event = .fix fix := by simpa using hno
      rcases r.navigator.told_fix_cases rig.config popped.clock fix with
        heq | ⟨-, ⟨p, honce⟩, -⟩
      · exact absurd (hoffers.symm.trans heq) hnone
      · refine .inr ⟨⟨calls, fix, ?_, ?_⟩, [], ?_, List.not_mem_nil⟩
        · rw [hclock]
        · rwa [hclock]
        · rw [htold, honce, hfix.resolve_right hno]
          rfl

/-- With nothing in the queue nothing is about to be accepted. -/
theorem isCalm (h : IsAccepting rig Q calls r) (hgoes : r.halt = none) (hqueue : r.queue = []) :
    IsCalm rig.config calls r := by
  rcases h.stands hgoes with hcalm | ⟨-, rest, hrest, -⟩
  · exact hcalm
  · cases hqueue.symm.trans hrest

/-- A call that is neither of a fix nor there to accept leaves a calm replay calm. -/
theorem handle_other (hauto : rig.autoResume = true) (hrig : rig.Spares Q)
    (h : IsAccepting rig Q calls r) (hcalm : IsCalm rig.config calls r) (event : Event α)
    (haccept : event ≠ .acceptOffer) (hfix : ∀ fix, event ≠ .fix fix) :
    IsAccepting rig Q (calls ++ r.call event) (r.handle rig event)
      ∧ IsCalm rig.config (calls ++ r.call event) (r.handle rig event) := by
  by_cases hgoes : r.halt = none
  · have hnone : offersIn rig.config calls (r.clock, event) = [] :=
      Navigator.offers_told _ _ _ hfix
    have hqueue : ∀ e ∈ r.queue, e.fix? = none ∧ e ≠ .acceptOffer :=
      fun e he => ⟨h.queue e he, fun heq => hcalm.queue (heq ▸ he)⟩
    obtain ⟨hhandled, hstill⟩ := h.handle hauto hrig hgoes ⟨rfl, rfl⟩ hqueue
      (hcalm.suits h.navigator (h.heard hgoes) _ haccept) (.inl hcalm.phase) (.inr hfix)
    rw [call_of_goes hgoes]
    exact ⟨hhandled, hstill hnone⟩
  · rw [handle_of_halt hgoes, call_of_halt hgoes, List.append_nil]
    exact ⟨h, hcalm⟩

/-- A fix that comes while the queue is empty suits the calls before. Before the driver has begun it
makes no offer. -/
theorem handle_fix (hauto : rig.autoResume = true) (hrig : rig.Spares Q)
    (h : IsAccepting rig Q calls r) (hgoes : r.halt = none) (hqueue : r.queue = [])
    (fix : Fix α) :
    IsAccepting rig Q (calls ++ r.call (.fix fix)) (r.handle rig (.fix fix))
      ∧ (r.navigator.phase = .preview →
        IsCalm rig.config (calls ++ r.call (.fix fix)) (r.handle rig (.fix fix))) := by
  have hcalm := h.isCalm hgoes hqueue
  obtain ⟨hhandled, hstill⟩ := h.handle hauto hrig hgoes ⟨rfl, rfl⟩ (by simp [hqueue])
    (hcalm.suits h.navigator (h.heard hgoes) _ (nofun : Event.fix fix ≠ .acceptOffer))
    (.inl hcalm.phase) (.inl hqueue)
  rw [call_of_goes hgoes]
  refine ⟨hhandled, fun hpreview => hstill ?_⟩
  rw [offersIn, ← h.navigator]
  exact (r.navigator.told_fix_cases rig.config r.clock fix).resolve_right
    fun hoffer => hoffer.1 hpreview

/-- What comes first in the queue is there to accept just if there is an offer to be accepted. -/
theorem pop (hauto : rig.autoResume = true) (hrig : rig.Spares Q) (h : IsAccepting rig Q calls r)
    (hgoes : r.halt = none) {event : Event α} {events : List (Event α)}
    (hqueue : r.queue = event :: events) :
    IsAccepting rig Q (calls ++ { r with queue := events }.call event)
      ({ r with queue := events }.handle rig event) := by
  set popped : Replay σ α := { r with queue := events }
  have hfixes := h.queue
  rw [hqueue, List.forall_mem_cons] at hfixes
  have hfix : ∀ fix, event ≠ .fix fix := by
    rintro fix rfl
    cases hfixes.1
  rcases h.stands hgoes with hcalm | hoffered
  · have hno := hcalm.queue
    rw [hqueue, List.mem_cons, not_or] at hno
    have hstill : IsCalm rig.config calls popped := ⟨hcalm.phase, hno.2, hcalm.last⟩
    have hpopped : IsAccepting rig Q calls popped :=
      ⟨h.navigator, h.host, hfixes.2, h.suits, h.heard, fun _ => .inl hstill⟩
    exact (hpopped.handle_other hauto hrig hstill event (Ne.symm hno.1) hfix).1
  · obtain ⟨rest, hrest, hno⟩ := hoffered.queue
    obtain ⟨rfl, rfl⟩ := List.cons.inj (hqueue.symm.trans hrest)
    have hgone : popped.halt = none := hgoes
    have hothers : ∀ e ∈ popped.queue, e.fix? = none ∧ e ≠ .acceptOffer :=
      fun e he => ⟨hfixes.2 e he, fun heq => hno (heq ▸ he)⟩
    rw [call_of_goes hgone]
    exact (h.handle hauto hrig hgone ⟨rfl, rfl⟩ hothers (hoffered.suits (h.heard hgoes))
      (.inr rfl) (.inr hfix)).1

theorem step (hauto : rig.autoResume = true) (hrig : rig.Spares Q) (h : IsAccepting rig Q calls r)
    (hgoes : r.halt = none) (target : Int) :
    IsAccepting rig Q (calls ++ r.stepCalls rig target) (r.step rig target).2
      ∧ ((r.step rig target).1 = true → (r.step rig target).2.halt = none →
        (r.step rig target).2.queue = []) := by
  rcases step_cases rig target r with ⟨-, hstep, hcalls⟩ | ⟨event, events, hqueue, hstep, hcalls⟩
    | ⟨due, hqueue, -, hstep, hcalls⟩ | ⟨hqueue, -, hstep, hcalls⟩ <;> rw [hstep, hcalls]
  · have hhalted : (r.haltWith .pause).halt ≠ none := nofun
    rw [List.append_nil]
    exact ⟨h.haltWith .pause, fun _ hgoes => absurd hgoes hhalted⟩
  · exact ⟨h.pop hauto hrig hgoes hqueue, nofun⟩
  · have hmoved := h.moveTo (h.isCalm hgoes hqueue) (max due r.clock)
    exact ⟨(hmoved.handle_other hauto hrig (hmoved.isCalm hgoes hqueue) .tick nofun nofun).1,
      nofun⟩
  · rw [List.append_nil]
    exact ⟨h.moveTo (h.isCalm hgoes hqueue) _, fun _ _ => hqueue⟩

/-- At the end of the way the queue is empty, unless the replay has halted. -/
theorem steps (hauto : rig.autoResume = true) (hrig : rig.Spares Q) (target : Int) :
    ∀ (k : Nat) {calls : List (Int × Event α)} {r : Replay σ α}, IsAccepting rig Q calls r →
      IsAccepting rig Q (calls ++ r.stepsCalls rig target k) (r.steps rig target k)
        ∧ ((r.steps rig target k).halt = none → (r.steps rig target k).queue = [])
  | 0, calls, r, h => by
    have hhalted : (r.haltWith .endless).halt ≠ none := nofun
    rw [stepsCalls, Replay.steps, List.append_nil]
    exact ⟨h.haltWith .endless, fun hgoes => absurd hgoes hhalted⟩
  | k + 1, calls, r, h => by
    unfold stepsCalls Replay.steps
    by_cases hhalt : r.halt = none
    · rw [if_neg (by simp [hhalt]), if_neg (by simp [hhalt])]
      have hgoes : (r.wait rig).halt = none := (stays_wait rig r).halt.trans hhalt
      obtain ⟨hstepped, hlast⟩ := (h.wait hrig).step hauto hrig hgoes target
      rcases hstep : (r.wait rig).step rig target with ⟨_ | _, r'⟩ <;> rw [hstep] at hstepped hlast
      · dsimp only
        rw [← List.append_assoc]
        exact steps hauto hrig target k hstepped
      · rw [List.append_nil]
        exact ⟨hstepped, hlast rfl⟩
    · have hhalted : r.halt.isSome = true := Option.ne_none_iff_isSome.1 hhalt
      rw [if_pos hhalted, if_pos hhalted, List.append_nil]
      exact ⟨h, fun hgoes => absurd hgoes hhalt⟩

theorem driveOn (hauto : rig.autoResume = true) (hrig : rig.Spares Q) :
    ∀ (fixes : List (Fix α)) {calls : List (Int × Event α)} {r : Replay σ α},
      IsAccepting rig Q calls r →
        IsAccepting rig Q (calls ++ r.driveOnCalls rig fixes) (r.driveOn rig fixes)
  | [], calls, r, h => by
    rw [driveOnCalls, List.append_nil]
    exact h
  | fix :: fixes, calls, r, h => by
    obtain ⟨hadvanced, hempty⟩ := h.steps hauto hrig fix.time patience
    unfold driveOnCalls Replay.driveOn advance
    set advanced := r.steps rig fix.time patience
    dsimp only
    rw [← List.append_assoc, ← List.append_assoc]
    by_cases hgoes : advanced.halt = none
    · have hdriven := (hadvanced.handle_fix hauto hrig hgoes (hempty hgoes) fix).1
      by_cases hover : (advanced.handle rig (.fix fix)).isOver = true
      · rw [if_pos hover, if_pos hover, List.append_nil]
        exact hdriven
      · rw [if_neg hover, if_neg hover]
        exact driveOn hauto hrig fixes hdriven
    · have hover := isOver_of_halt hgoes
      rw [handle_of_halt hgoes, call_of_halt hgoes, if_pos hover, if_pos hover, List.append_nil,
        List.append_nil]
      exact hadvanced

/-- The first fix is taken in before the driver has begun. -/
theorem drive (hauto : rig.autoResume = true) (hrig : rig.Spares Q) (h : IsAccepting rig Q calls r)
    (hqueue : r.queue = []) (hphase : r.halt = none → r.navigator.phase = .preview)
    (fixes : List (Fix α)) :
    IsAccepting rig Q (calls ++ r.driveCalls rig fixes) (r.drive rig fixes) := by
  unfold driveCalls Replay.drive
  rcases fixes with _ | ⟨first, fixes⟩
  · rw [List.append_nil]
    exact h
  dsimp only
  by_cases hgoes : r.halt = none
  · rw [if_neg (by simp [hgoes]), if_neg (by simp [hgoes])]
    have hstarted := h.moveTo (h.isCalm hgoes hqueue) first.time
    obtain ⟨hlocated, hcalm⟩ := hstarted.handle_fix hauto hrig hgoes hqueue first
    have hbegun := (hlocated.handle_other hauto hrig (hcalm (hphase hgoes)) .begin nofun nofun).1
    rw [← List.append_assoc, ← List.append_assoc]
    exact hbegun.driveOn hauto hrig fixes
  · rw [if_pos (Option.ne_none_iff_isSome.1 hgoes), if_pos (Option.ne_none_iff_isSome.1 hgoes),
      List.append_nil]
    exact h

theorem emptyQueue (hauto : rig.autoResume = true) (hrig : rig.Spares Q) :
    ∀ (k : Nat) {calls : List (Int × Event α)} {r : Replay σ α}, IsAccepting rig Q calls r →
      IsAccepting rig Q (calls ++ r.emptyQueueCalls rig k) (r.emptyQueue rig k)
        ∧ ((r.emptyQueue rig k).halt = none → (r.emptyQueue rig k).queue = [])
  | 0, calls, r, h => by
    have hhalted : (r.haltWith .endless).halt ≠ none := nofun
    rw [emptyQueueCalls, Replay.emptyQueue, List.append_nil]
    exact ⟨h.haltWith .endless, fun hgoes => absurd hgoes hhalted⟩
  | k + 1, calls, r, h => by
    unfold emptyQueueCalls Replay.emptyQueue
    by_cases hgoes : r.halt = none
    · rw [if_neg (by simp [hgoes]), if_neg (by simp [hgoes])]
      rcases hqueue : r.queue with _ | ⟨event, events⟩
      · rw [List.append_nil]
        exact ⟨h, fun _ => hqueue⟩
      · dsimp only
        rw [← List.append_assoc]
        exact emptyQueue hauto hrig k (h.pop hauto hrig hgoes hqueue)
    · have hhalted : r.halt.isSome = true := Option.ne_none_iff_isSome.1 hgoes
      rw [if_pos hhalted, if_pos hhalted, List.append_nil]
      exact ⟨h, fun hgone => absurd hgone hgoes⟩

/-- Finishing is the last call, unless the replay has halted. -/
theorem finish (hauto : rig.autoResume = true) (hrig : rig.Spares Q)
    (h : IsAccepting rig Q calls r) :
    IsAccepting rig Q (calls ++ r.finishCalls rig) (r.finish rig)
      ∧ ((r.finish rig).halt = none →
        ∃ past now, calls ++ r.finishCalls rig = past ++ [(now, .finish)]) := by
  obtain ⟨hemptied, hempty⟩ := (h.wait hrig).emptyQueue hauto hrig patience
  unfold finishCalls Replay.finish
  set emptied := (r.wait rig).emptyQueue rig patience
  rw [← List.append_assoc]
  by_cases hgoes : emptied.halt = none
  · have hcalm := hemptied.isCalm hgoes (hempty hgoes)
    refine ⟨(hemptied.handle_other hauto hrig hcalm .finish nofun nofun).1,
      fun _ => ⟨calls ++ (r.wait rig).emptyQueueCalls rig patience, emptied.clock, ?_⟩⟩
    rw [call_of_goes hgoes]
  · rw [handle_of_halt hgoes, call_of_halt hgoes, List.append_nil]
    exact ⟨hemptied, fun hgone => absurd hgone hgoes⟩

/-- Showing an area makes no offer. -/
theorem load (hauto : rig.autoResume = true) (hrig : rig.Spares Q) {host : σ} (hhost : Q host)
    (area : Area α) :
    IsAccepting rig Q ((start host).loadCalls rig area) ((start host).load rig area)
      ∧ ((start host).load rig area).queue = []
      ∧ (((start host).load rig area).halt = none →
        ((start host).load rig area).navigator.phase = .preview) := by
  have hstart : IsAccepting rig Q [] (start host) :=
    ⟨rfl, hhost, nofun, by simp, fun _ _ => by simp,
      fun _ => .inl ⟨nofun, List.not_mem_nil, by simp⟩⟩
  have hviewed := hstart.handle_other hauto hrig (hstart.isCalm rfl rfl) (.view ⟨rig.follow, false⟩)
    nofun nofun
  have hloaded := hviewed.1.handle_other hauto hrig hviewed.2 (.areaLoaded area rig.ranks)
    nofun nofun
  refine ⟨hloaded.1, ?_, fun hgoes => ?_⟩
  · rw [Replay.load, queue_handle_other rig (.areaLoaded area rig.ranks) nofun,
      queue_handle_other rig (.view ⟨rig.follow, false⟩) nofun]
    rfl
  · obtain ⟨shown, n, hload, hn⟩ := isOk_of_goes hgoes
    obtain ⟨route, -, rfl⟩ := hviewed.1.reachable.of_load hload
    rw [Replay.load, hn]
    rfl

/-- The calls of a whole replay suit each other, and finishing is the last one unless the replay has
halted. -/
theorem run (hauto : rig.autoResume = true) (hrig : rig.Spares Q) (host : σ) (hhost : Q host)
    (area : Area α) (fixes : List (Fix α)) :
    IsAccepting rig Q (runCalls rig host area fixes) (run rig host area fixes)
      ∧ ((Replay.run rig host area fixes).halt = none →
        ∃ past now, runCalls rig host area fixes = past ++ [(now, .finish)]) := by
  obtain ⟨hloaded, hqueue, hphase⟩ := load hauto hrig hhost area
  have hdriven := hloaded.drive hauto hrig hqueue hphase fixes
  unfold runCalls Replay.run
  rw [← List.append_assoc]
  exact hdriven.finish hauto hrig

end IsAccepting

/-- When every offer is to be accepted, a fix is taken in only while nothing is on offer. Each offer
is told of by a fix, and accepting it is the call right after that one, at the same time, unless the
replay halts there. Nothing is accepted but right after such a fix: then the point on offer is taken
up, or there is none and nothing comes of it, and where batches are put off at all nothing is due
either, unless an overflow went unnoticed. So the way to a point on offer is never shown. -/
theorem accepts_offers (rig : Rig σ α) (hauto : rig.autoResume = true) (host : σ) (area : Area α)
    (fixes : List (Fix α)) :
    ∃ calls, calls = runCalls rig host area fixes
      ∧ Navigator.run rig.config .fresh calls = (run rig host area fixes).navigator
      ∧ (∀ before now event after, calls = before ++ (now, event) :: after →
        (∀ fix, event = .fix fix → (Navigator.run rig.config .fresh before).phase ≠ .resume)
          ∧ (offersIn rig.config before (now, event) ≠ [] →
            (∃ fix, event = .fix fix)
              ∧ ((∃ rest, after = (now, .acceptOffer) :: rest)
                ∨ after = [] ∧ (run rig host area fixes).halt ≠ none))
          ∧ (event = .acceptOffer → ∃ past fix, before = past ++ [(now, .fix fix)]
            ∧ offersIn rig.config past (now, .fix fix) ≠ []
            ∧ ((Navigator.run rig.config .fresh before).TakesUp rig.config now
              ∨ (Navigator.run rig.config .fresh before).phase = .offRoute
                ∧ (Navigator.run rig.config .fresh before).Ignores rig.config now
                ∧ (0 < rig.config.coverage.quiet →
                  (Navigator.run rig.config .fresh past).Heeds rig.config [(now, .fix fix)] →
                  (Navigator.run rig.config .fresh before).handle rig.config now .acceptOffer
                    = (.ok [], Navigator.run rig.config .fresh before)))))
      ∧ ∀ e ∈ told rig host area fixes, e.isWayToOffer = false := by
  have hall : rig.Spares fun _ => True := ⟨fun _ _ => trivial, fun _ _ => trivial,
    fun _ _ => trivial⟩
  obtain ⟨haccepting, hlast⟩ := IsAccepting.run hauto hall host trivial area fixes
  refine ⟨_, rfl, haccepting.navigator.symm, fun before now event after heq => ?_, ?_⟩
  · have hsuits := haccepting.suits before (now, event) after heq
    refine ⟨hsuits.fix, fun hoffers => ?_, fun haccept => ?_⟩
    · have hfix : ∃ fix, event = .fix fix := by
        by_contra hno
        exact hoffers (Navigator.offers_told _ _ _ fun fix hfix => hno ⟨fix, hfix⟩)
      refine ⟨hfix, ?_⟩
      rcases after with _ | ⟨next, rest⟩
      · refine .inr ⟨rfl, fun hgoes => ?_⟩
        obtain ⟨past, time, hfinish⟩ := hlast hgoes
        obtain ⟨-, hcall⟩ := List.append_inj' (heq.symm.trans hfinish) rfl
        obtain ⟨fix, rfl⟩ := hfix
        cases hcall
      · have hnext := haccepting.suits (before ++ [(now, event)]) next rest (by simp [heq])
        obtain rfl := hnext.follows before (now, event) rfl hoffers
        exact .inl ⟨rest, rfl⟩
    · obtain ⟨past, fix, hbefore, hoffers⟩ := hsuits.accepts haccept
      refine ⟨past, fix, hbefore, hoffers, ?_⟩
      have hreachable : Navigator.Reachable rig.config (Navigator.run rig.config .fresh past) :=
        .run .fresh past
      have hrun : Navigator.run rig.config .fresh before
          = ((Navigator.run rig.config .fresh past).handle rig.config now (.fix fix)).2 := by
        rw [hbefore, Navigator.run, List.foldl_append]
        rfl
      rw [hrun]
      rcases (Navigator.run rig.config .fresh past).told_fix_cases rig.config now fix with
        hnone | ⟨-, -, hresume | hoff⟩
      · exact absurd hnone hoffers
      · exact .inl ((hreachable.handle now (.fix fix)).takesUp now hresume)
      · refine .inr ⟨hoff, Navigator.ignores_of_offRoute rig.config now hoff,
          fun hquiet hheeds => hreachable.accepts_nothing hoff hquiet ?_⟩
        cases hchecked : Scalar.checked α with
        | false => exact (hheeds hchecked).1
        | true => exact hsuits.heard hchecked past _ hbefore
  · have hlogged : rig.logged.autoResume = true := hauto
    exact (IsAccepting.run hlogged rig.spares_logged (host, []) (by simp) area
      fixes).1.host

end Replay

namespace Trial

/-- Everything is done as soon as it can be, and every offer is accepted. -/
def willing : Rig Unit ℚ := { prompt with autoResume := true }

/-- From the start of the road far off it, where there is nothing to resume at, and on to a place
too far along it to have driven there. -/
def detour : List (Fix ℚ) :=
  [.ofPoint (place 0) 0, .ofPoint (place 0) 1000, .ofPoint (place 40) 2000,
    .ofPoint (place 8) 3000, .ofPoint (place 8) 4000]

end Trial

namespace Replay

/-- Both offers are accepted, though only the second is of a point. -/
theorem accepts_offers_detour :
    ∃ calls, calls = runCalls Trial.willing () (Trial.area "north") Trial.detour
      ∧ (calls.filterMap fun call => match call.2 with
          | .acceptOffer => some call.1
          | _ => none) = [2000, 3000]
      ∧ (Navigator.run .standard .fresh (calls.take 6)).phase = .offRoute
      ∧ (Navigator.run .standard .fresh (calls.take 10)).phase = .resume
      ∧ ∀ e ∈ told Trial.willing () (Trial.area "north") Trial.detour, e.isWayToOffer = false := by
  obtain ⟨calls, rfl, -, -, hways⟩ :=
    accepts_offers Trial.willing rfl () (Trial.area "north") Trial.detour
  refine ⟨_, rfl, ?_, ?_, ?_, hways⟩ <;> decide +kernel

end Replay

end Roadbook
