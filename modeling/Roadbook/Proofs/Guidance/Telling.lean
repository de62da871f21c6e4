import Mathlib.Data.List.Chain
import Roadbook.Proofs.Guidance.NewArea
import Roadbook.Proofs.Guidance.Sessions

/-!
# What the driver is told

The driver is given instructions and has word of the signal. An operation of a session takes in what
has happened, goes on without a word (`Dispatch.Mutes`) and gives the instruction that is then due
(`Dispatch.Announces`), or it does nothing at all. So what comes to be true by an instruction, and
was nearly so before (`Session.Tells`), is true after every call as long as the area stays loaded
(`Session.Tells.run`). An area is unloaded, and another one loaded, without a word
(`Navigator.Reachable.mutes_unloads`).
-/

namespace Roadbook

/-- No two items in a row are alike, and the last one, if any, is known. -/
structure Turns {β : Type} (items : List β) (last : Option β) : Prop where
  chain : items.IsChain (· ≠ ·)
  last : items.getLast? = last

theorem Turns.concat {β : Type} {items : List β} {last : Option β} (h : Turns items last) {b : β}
    (hturn : last ≠ some b) : Turns (items ++ [b]) (some b) := by
  refine ⟨List.isChain_append.2 ⟨h.chain, .singleton b, fun x hx y hy => ?_⟩,
    List.getLast?_concat⟩
  obtain rfl := Option.some.inj hy
  rintro rfl
  exact hturn (h.last.symm.trans hx)

/-- Effects that are neither instructions nor word of the signal. -/
def Effect.IsMute {α : Type} : Effect α → Prop
  | .instruction _ | .signalLost | .signalRestored => False
  | _ => True

theorem Effect.IsBeside.isMute {α : Type} {e : Effect α} (h : e.IsBeside) : e.IsMute := by
  cases e <;> trivial

/-- The driver has been told nothing, and nothing has been heard of the driver. -/
structure Dispatch.Mutes {α : Type} (d d' : Dispatch α) : Prop where
  position : d'.session.position = d.session.position
  lastSignal : d'.session.lastSignal = d.session.lastSignal
  waiting : d'.session.waiting = d.session.waiting
  announced : d'.session.announced = d.session.announced
  effects : ∃ new, d'.effects = d.effects ++ new ∧ ∀ e ∈ new, e.IsMute

/-- What effects tell of is not added to by effects without a word. -/
theorem Effect.filterMap_mute {α β : Type} {f : Effect α → Option β}
    (hf : ∀ e : Effect α, e.IsMute → f e = none) {effects new : List (Effect α)}
    (hnew : ∀ e ∈ new, e.IsMute) : (effects ++ new).filterMap f = effects.filterMap f := by
  rw [List.filterMap_append, List.filterMap_eq_nil_iff.2 fun e he => hf e (hnew e he),
    List.append_nil]

/-- Fixes are expected, and the driver has not been told that the signal is gone. -/
def Session.CanLose {α : Type} (s : Session α) : Prop := s.waiting = false ∧ s.ExpectsFixes

instance {α : Type} (s : Session α) : Decidable s.CanLose := inferInstanceAs (Decidable (_ ∧ _))

namespace Dispatch

section Mute

variable {α : Type} {d d' d'' : Dispatch α}

theorem Mutes.of_session {s : Session α} (hposition : s.position = d.session.position)
    (hlast : s.lastSignal = d.session.lastSignal) (hwaiting : s.waiting = d.session.waiting)
    (hannounced : s.announced = d.session.announced) : d.Mutes (d.withSession s) :=
  ⟨hposition, hlast, hwaiting, hannounced, [], (List.append_nil _).symm, by simp⟩

theorem Mutes.refl (d : Dispatch α) : d.Mutes d := .of_session rfl rfl rfl rfl

theorem Mutes.trans (h : d.Mutes d') (h' : d'.Mutes d'') : d.Mutes d'' := by
  obtain ⟨new, heffects, hnew⟩ := h.effects
  obtain ⟨more, heffects', hmore⟩ := h'.effects
  refine ⟨h'.position.trans h.position, h'.lastSignal.trans h.lastSignal,
    h'.waiting.trans h.waiting, h'.announced.trans h.announced, new ++ more, ?_,
    List.forall_mem_append.2 ⟨hnew, hmore⟩⟩
  rw [heffects', heffects, List.append_assoc]

theorem mutes_emit (d : Dispatch α) {e : Effect α} (he : e.IsMute) : d.Mutes (d.emit e) :=
  ⟨rfl, rfl, rfl, rfl, [e], rfl, List.forall_mem_singleton.2 he⟩

theorem mutes_request (d : Dispatch α) (purpose : Purpose) (a b : Point α) :
    d.Mutes (d.request purpose a b) :=
  ⟨rfl, rfl, rfl, rfl, _, rfl, List.forall_mem_singleton.2 trivial⟩

theorem mutes_entering (d : Dispatch α) (phase : Phase) : d.Mutes (d.entering phase) :=
  ⟨rfl, rfl, rfl, rfl, _, rfl, List.forall_mem_singleton.2 trivial⟩

theorem mutes_resolve (id : Nat) (found : Option (List (Point α))) (d : Dispatch α) :
    d.Mutes (d.resolve id found) := by
  rcases d.resolve_cases id found with heq | ⟨r, -, -, -, heq⟩ <;> rw [heq]
  · exact .refl d
  · exact ⟨rfl, rfl, rfl, rfl, _, rfl, List.forall_mem_singleton.2 trivial⟩

variable [Scalar α] {config : Config α} {now : Int}

theorem mutes_arrange (before : Phase) (d : Dispatch α) :
    d.Mutes (d.arrange config now before) := by
  unfold arrange
  split
  · split
    · exact d.mutes_request _ _ _
    · exact .refl d
  · exact ⟨rfl, rfl, rfl, rfl, [], (List.append_nil _).symm, by simp⟩
  · split_ifs
    · exact .refl d
    · exact .of_session rfl rfl rfl rfl
  · split
    · exact d.mutes_request _ _ _
    · exact .refl d
  · exact .refl d

theorem mutes_transition (d : Dispatch α) (phase : Phase) :
    d.Mutes (d.transition config now phase) := by
  by_cases hne : d.session.phase = phase
  · rw [← hne, transition_self]
    exact .refl d
  · rw [transition_of_ne hne]
    exact (d.mutes_entering phase).trans (mutes_arrange _ _)

theorem mutes_moveOn (d : Dispatch α) (phase : Phase) : d.Mutes (d.moveOn config now phase) := by
  have hmoved : d.Mutes (d.transition config now phase) := d.mutes_transition phase
  unfold moveOn
  dsimp only
  split_ifs
  · exact hmoved.trans (mutes_transition _ _)
  · exact hmoved

theorem mutes_showPosition (d : Dispatch α) (p : Point α) : d.Mutes (d.showPosition p) :=
  d.mutes_emit trivial

variable [Geodesy α]

theorem mutes_advance (d : Dispatch α) (p : Point α) (time : Int) :
    d.Mutes (d.advance config p time).2 := by
  by_cases hguiding : d.session.phase.IsGuiding
  · rw [advance_of_guiding hguiding]
    exact .of_session rfl rfl rfl rfl
  · rw [advance_of_not_guiding hguiding]
    rcases askForStart_cases d p with heq | ⟨b, -, heq⟩ <;> rw [heq]
    · exact .refl d
    · exact d.mutes_request _ _ _

end Mute

variable {α : Type} [Scalar α] [Geodesy α] {config : Config α} {now : Int} {d d' : Dispatch α}

/-- What comes without a word, and then the instruction that is due. -/
def Announces (config : Config α) (d d' : Dispatch α) : Prop :=
  ∃ b, d.Mutes b ∧ d' = b.announce config

theorem Mutes.announces (h : d.Mutes d') : d.Announces config (d'.announce config) := ⟨d', h, rfl⟩

theorem announces_applyFix (config : Config α) (now : Int) (fix : Fix α) (d : Dispatch α) :
    (d.receive now fix).Announces config (d.applyFix config now fix) := by
  rw [applyFix_eq]
  have hadvanced : (d.receive now fix).Mutes
      ((d.receive now fix).advance config fix.point fix.time).2 := mutes_advance _ _ _
  generalize (d.receive now fix).advance config fix.point fix.time = found at hadvanced ⊢
  obtain ⟨phase, advanced⟩ := found
  have hmoved : (d.receive now fix).Mutes (advanced.moveOn config now phase) :=
    hadvanced.trans (advanced.mutes_moveOn phase)
  exact (hmoved.trans (mutes_showPosition _ fix.point)).announces

theorem announces_begin (hphase : d.session.phase = .preview) :
    (d.withSession { d.session with lastSignal := some now }).Announces config
      (d.begin config now) := by
  unfold begin
  rw [if_pos hphase]
  exact (mutes_transition _ _).announces

theorem announces_settle (config : Config α) (now : Int) (d : Dispatch α) :
    d.settle config now = d ∨ d.Announces config (d.settle config now) := by
  unfold settle
  split_ifs
  · exact .inr (mutes_transition d _).announces
  · exact .inl rfl

theorem announces_accept (config : Config α) (now : Int) (d : Dispatch α) :
    d.accept config now = d ∨ d.Announces config (d.accept config now) := by
  unfold accept
  split
  · rename_i m hm
    split_ifs
    · extract_lets resumed shown
      have hforced : d.Mutes (d.withSession (d.session.resumeAt m)) := .of_session rfl rfl rfl rfl
      have hresumed : d.Mutes resumed := hforced.trans (mutes_transition _ _)
      have hshown : d.Mutes shown := by
        unfold shown
        split
        · exact hresumed.trans (mutes_showPosition _ _)
        · exact hresumed
      exact .inr hshown.announces
    · exact .inl rfl
  · exact .inl rfl

theorem announces_dismiss (config : Config α) (now : Int) (d : Dispatch α) :
    d.dismiss config now = d ∨ d.Announces config (d.dismiss config now) := by
  unfold dismiss
  split_ifs
  · have hdeclined : d.Mutes (d.withSession { d.session with dismissed := true, offer := none }) :=
      .of_session rfl rfl rfl rfl
    exact .inr (hdeclined.trans (mutes_transition _ _)).announces
  · exact .inl rfl

theorem loseSignal_of_canLose (hlost : d.session.CanLose) : d.loseSignal config
    = ((d.withSession { d.session with waiting := true }).emit .signalLost).announce config :=
  if_pos hlost

theorem loseSignal_of_not (hno : ¬ d.session.CanLose) : d.loseSignal config = d := if_neg hno

theorem announces_loseSignal (hlost : d.session.CanLose) :
    ((d.withSession { d.session with waiting := true }).emit .signalLost).Announces config
      (d.loseSignal config) := by
  rw [loseSignal_of_canLose hlost]
  exact (Mutes.refl _).announces

theorem begin_of_ne (hphase : d.session.phase ≠ .preview) : d.begin config now = d :=
  if_neg hphase

end Dispatch

/-- True of a session and the effects so far when nothing more is to be told: it comes to be so by
an instruction, from what is true still when something has happened. -/
structure Session.Tells {α : Type} [Scalar α] [Geodesy α] (config : Config α)
    (still P : Session α → List (Effect α) → Prop) : Prop where
  announces : ∀ {d d' : Dispatch α}, d.Announces config d' → d.Shows still → d'.Shows P
  beside : ∀ {s : Session α} {effects : List (Effect α)} {e : Effect α}, e.IsBeside →
    P s effects → P s (effects ++ [e])
  resolve : ∀ (id : Nat) (found : Option (List (Point α))) (d : Dispatch α), d.Shows P →
    (d.resolve id found).Shows P
  silence : ∀ {s : Session α} {effects : List (Effect α)}, P s effects → still s effects
  begins : ∀ (now : Int) {s : Session α} {effects : List (Effect α)}, P s effects →
    still { s with lastSignal := some now } effects
  loses : ∀ {s : Session α} {effects : List (Effect α)}, P s effects → s.waiting = false →
    still { s with waiting := true } (effects ++ [.signalLost])
  receives : ∀ (now : Int) (fix : Fix α) (d : Dispatch α), d.Shows P →
    (d.receive now fix).Shows still

namespace Session.Tells

variable {α : Type} [Scalar α] [Geodesy α] {config : Config α} {now : Int}
  {still P : Session α → List (Effect α) → Prop}

theorem lasts (hP : Tells config still P) : Lasts config P where
  beside := hP.beside
  settle now d h := by
    rcases d.announces_settle config now with heq | hannounces
    · rwa [heq]
    · exact hP.announces hannounces (hP.silence h)
  begin now d h := by
    by_cases hphase : d.session.phase = .preview
    · exact hP.announces (Dispatch.announces_begin hphase) (hP.begins now h)
    · rwa [Dispatch.begin_of_ne hphase]
  accept now d h := by
    rcases d.announces_accept config now with heq | hannounces
    · rwa [heq]
    · exact hP.announces hannounces (hP.silence h)
  dismiss now d h := by
    rcases d.announces_dismiss config now with heq | hannounces
    · rwa [heq]
    · exact hP.announces hannounces (hP.silence h)
  resolve := hP.resolve
  loseSignal d h := by
    by_cases hlost : d.session.CanLose
    · exact hP.announces (Dispatch.announces_loseSignal hlost) (hP.loses h hlost.1)
    · rwa [Dispatch.loseSignal_of_not hlost]

/-- A call that leaves the area loaded leaves nothing to be told. -/
theorem handle (hP : Tells config still P) {n n' : Navigator α} {s : Session α}
    (hs : n.session = some s) (h : P s []) {event : Event α} {effects : List (Effect α)}
    (hkeeps : ¬ event.Unloads) (hok : n.handle config now event = (.ok effects, n')) :
    ∃ s', n'.session = some s' ∧ P s' effects := by
  rcases n.handle_cases config now event with ⟨o, hresponse, heq⟩ | ⟨_, _, heq⟩ <;>
    cases heq.symm.trans hok
  have hdue : (n.due config now).Shows P := hP.lasts.due hs h
  refine hdue.respond hP.lasts hkeeps (fun fix s₂ _ _ hs₂ => ?_) hresponse
  obtain ⟨s₁, hs₁, hshown⟩ := hdue
  obtain rfl := Option.some.inj (hs₁.symm.trans hs₂)
  exact hP.announces (Dispatch.announces_applyFix config now fix _) (hP.receives now fix _ hshown)

/-- What each call that leaves the area loaded keeps, with all that was told before, is true after
any number of them. -/
theorem run (hP : ∀ told, Tells config (fun s effects => still s (told ++ effects))
      fun s effects => P s (told ++ effects)) :
    ∀ (calls : List (Int × Event α)) {n : Navigator α} {s : Session α} {told : List (Effect α)},
      n.session = some s → P s told → (∀ a ∈ n.log config calls, ¬ a.Unloads) →
      (∀ a ∈ n.log config calls, a.result.isOk = true) →
        ∃ t, (n.run config calls).session = some t
          ∧ P t (told ++ (n.log config calls).flatMap Answer.effects)
  | [], n, s, told, hs, h, _, _ => ⟨s, hs, by rwa [Navigator.log, List.flatMap_nil, List.append_nil]⟩
  | (now, event) :: calls, n, s, told, hs, h, hkeeps, hok => by
    rcases hhandle : n.handle config now event with ⟨result, n'⟩
    simp only [Navigator.log, hhandle, List.forall_mem_cons] at hkeeps hok
    rcases result with _ | effects
    · cases hok.1
    have hkeep : ¬ event.Unloads := fun hunloads => hkeeps.1 ⟨hunloads, rfl⟩
    obtain ⟨s', hs', h'⟩ := (hP told).handle hs (by rwa [List.append_nil]) hkeep hhandle
    have hrest := run hP calls hs' h' hkeeps.2 hok.2
    have hrun : n.run config ((now, event) :: calls) = n'.run config calls := by
      simp only [Navigator.run, List.foldl_cons, hhandle]
    rw [hrun]
    simp only [Navigator.log, hhandle, List.flatMap_cons, ← List.append_assoc]
    exact hrest

end Session.Tells

/-- Guidance ends and what is owed is handed out, all without a word to the driver. -/
theorem Outcome.mutes_unload {α : Type} [Scalar α] (config : Config α) (now : Int)
    (o : Outcome α) : ∃ new, (o.unload config now).effects = o.effects ++ new
      ∧ ∀ e ∈ new, e.IsMute := by
  obtain ⟨ended, hended, hmute⟩ : ∃ new, (o.inSession (·.finish config now)).effects
      = o.effects ++ new ∧ ∀ e ∈ new, e.IsMute := by
    rcases hs : o.navigator.session with _ | s
    · rw [inSession_none hs]
      exact ⟨[], (List.append_nil _).symm, by simp⟩
    · rw [inSession_some hs]
      exact ((o.dispatch s).mutes_transition .setup).effects
  rcases ((o.inSession (·.finish config now)).withSession none).drain_cases with
    ⟨heq, -⟩ | ⟨t, -, heq⟩
  · exact ⟨ended, (congrArg Outcome.effects heq).trans hended, hmute⟩
  · have hlast : ∀ e : Effect α, e ∈ [.persist (t.batch t.unconfirmed) true] → e.IsMute :=
      List.forall_mem_singleton.2 trivial
    refine ⟨_, ?_, List.forall_mem_append.2 ⟨hmute, hlast⟩⟩
    rw [← List.append_assoc, ← hended]
    exact congrArg Outcome.effects heq

/-- Once the tasks that are due have run, nothing more is told where an area is unloaded. -/
theorem Navigator.Reachable.mutes_unloads {α : Type} [Scalar α] [Geodesy α] {config : Config α}
    {n n' : Navigator α} (h : Reachable config n) {now : Int} {event : Event α}
    {effects : List (Effect α)} (hunloads : event.Unloads)
    (hok : n.handle config now event = (.ok effects, n')) :
    ∃ new, effects = (n.due config now).effects ++ new ∧ ∀ e ∈ new, e.IsMute := by
  obtain ⟨ended, hended, hmute⟩ := (n.due config now).mutes_unload config now
  cases event with
  | areaLoaded area =>
    obtain ⟨route, rfl, -⟩ := h.of_load hok
    refine ⟨ended ++ area.shown route, by rw [hended, List.append_assoc],
      List.forall_mem_append.2 ⟨hmute, ?_⟩⟩
    simp [Area.shown, Effect.IsMute]
  | finish =>
    cases (n.handle_finish config now).symm.trans hok
    exact ⟨ended, hended, hmute⟩
  | _ => exact hunloads.elim

end Roadbook
