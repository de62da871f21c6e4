import Mathlib.Data.List.Nodup
import Roadbook.Proofs.Guidance.Acts

/-!
# Who asked for directions

A `Ledger` has all the requests for directions there were, each with the number of the session that
made it. As a navigator works (`Outcome.IsKnown`), what a session has asked for and not been
answered stands in the ledger under its number, and no session gives an id twice. The tasks that are
due ask for nothing and leave what is pending (`Navigator.isStill_due`).
-/

namespace Roadbook

/-- Effects that neither start a session nor ask for directions or show them. -/
def Effect.IsQuiet {α : Type} : Effect α → Prop
  | .showRoute _ | .requestDirections _ | .guidancePath _ _ _ => False
  | _ => True

theorem Effect.IsReport.isQuiet {α : Type} {e : Effect α} (h : e.IsReport) : e.IsQuiet := by
  cases e <;> trivial

theorem Effect.IsDue.isQuiet {α : Type} {e : Effect α} (h : e.IsDue) : e.IsQuiet := by
  cases e <;> trivial

structure Ledger (α : Type) where
  /-- The number of the session that was started last. -/
  session : Nat
  /-- The requests, each with the number of its session. -/
  asked : List (Nat × Request α)

namespace Ledger

variable {α : Type} {g : Ledger α} {s t : Session α}

def empty : Ledger α := ⟨0, []⟩

def add (g : Ledger α) : Effect α → Ledger α
  | .showRoute _ => { g with session := g.session + 1 }
  | .requestDirections r => { g with asked := g.asked ++ [(g.session, r)] }
  | _ => g

def addAll (g : Ledger α) (effects : List (Effect α)) : Ledger α := effects.foldl add g

@[simp] theorem addAll_concat (g : Ledger α) (effects : List (Effect α)) (e : Effect α) :
    g.addAll (effects ++ [e]) = (g.addAll effects).add e := by
  simp [addAll]

theorem add_of_isQuiet {e : Effect α} (h : e.IsQuiet) : g.add e = g := by
  cases e <;> first | rfl | exact h.elim

theorem addAll_of_isQuiet : ∀ {effects : List (Effect α)}, (∀ e ∈ effects, e.IsQuiet) →
    g.addAll effects = g
  | [], _ => rfl
  | e :: effects, h => by
    show (g.add e).addAll effects = g
    rw [add_of_isQuiet (h e List.mem_cons_self)]
    exact addAll_of_isQuiet fun e he => h e (List.mem_cons_of_mem _ he)

/-- No session is from the future, and none gave an id twice. -/
structure IsInOrder (g : Ledger α) : Prop where
  bound : ∀ e ∈ g.asked, e.1 ≤ g.session
  distinct : (g.asked.map fun e => (e.1, e.2.id)).Nodup

/-- The session that was started last is one that asked for what the ledger says. -/
structure Knows (g : Ledger α) (s : Session α) : Prop where
  pending : ∀ r, s.pending = some r → (g.session, r) ∈ g.asked ∧ r.purpose.phase = s.phase
  fresh : ∀ r, (g.session, r) ∈ g.asked → r.id < s.nextRequest

theorem isInOrder_empty : (empty : Ledger α).IsInOrder := ⟨by simp [empty], .nil⟩

theorem IsInOrder.unique (h : g.IsInOrder) {n : Nat} {r r' : Request α} (hr : (n, r) ∈ g.asked)
    (hr' : (n, r') ∈ g.asked) (hid : r.id = r'.id) : r = r' := by
  have hkey : (n, r.id) = (n, r'.id) := by rw [hid]
  exact (Prod.mk.inj (List.inj_on_of_nodup_map h.distinct hr hr' hkey)).2

theorem Knows.of_agrees (h : g.Knows t) (hs : s.Agrees t) : g.Knows s := by
  refine ⟨fun r hr => ?_, fun r hr => ?_⟩
  · rw [hs.pending] at hr
    rw [hs.phase]
    exact h.pending r hr
  · rw [hs.nextRequest]
    exact h.fresh r hr

theorem Knows.enter (h : g.Knows s) (phase : Phase) : g.Knows (s.enter phase) := by
  refine ⟨fun r hr => ?_, h.fresh⟩
  obtain ⟨hr, hphase⟩ := Option.filter_eq_some_iff.1 hr
  exact ⟨(h.pending r hr).1, of_decide_eq_true hphase⟩

/-- A request is made under an id that the session has not given yet. -/
theorem knows_request (ho : g.IsInOrder) (h : g.Knows s) {r : Request α}
    (hid : r.id = s.nextRequest) (hphase : r.purpose.phase = s.phase) :
    (g.add (.requestDirections r)).IsInOrder ∧ (g.add (.requestDirections r)).Knows
      { s with
        pending := some r
        nextRequest := s.nextRequest + 1 } := by
  refine ⟨⟨?_, ?_⟩, ⟨?_, ?_⟩⟩
  · intro e he
    rcases List.mem_append.1 he with he | he
    · exact ho.bound e he
    · rw [List.mem_singleton.1 he]
      exact Nat.le_refl _
  · have hnew : (g.session, r.id) ∉ g.asked.map fun e => (e.1, e.2.id) := by
      rintro hmem
      obtain ⟨⟨n, r'⟩, he, hkey⟩ := List.mem_map.1 hmem
      simp only [Prod.mk.injEq] at hkey
      obtain ⟨rfl, hid'⟩ := hkey
      have hless := h.fresh r' he
      omega
    show ((g.asked ++ [(g.session, r)]).map _).Nodup
    rw [List.map_append, List.nodup_append_comm]
    exact List.nodup_cons.2 ⟨hnew, ho.distinct⟩
  · rintro r' ⟨⟩
    exact ⟨by simp [add], hphase⟩
  · intro r' hr'
    rcases List.mem_append.1 hr' with hr' | hr'
    · exact Nat.lt_succ_of_lt (h.fresh r' hr')
    · obtain ⟨-, rfl⟩ := Prod.mk.inj (List.mem_singleton.1 hr')
      rw [hid]
      exact Nat.lt_succ_self _

theorem knows_start (ho : g.IsInOrder) (area : String) (route : Route α) (smoother : Smoother α) :
    (g.add (.showRoute route)).IsInOrder
      ∧ (g.add (.showRoute route)).Knows (.ofRoute area route smoother) := by
  refine ⟨⟨fun e he => Nat.le_succ_of_le (ho.bound e he), ho.distinct⟩, ⟨?_, ?_⟩⟩
  · rintro r ⟨⟩
  · intro r hr
    exact absurd (ho.bound _ hr) (Nat.not_succ_le_self _)

end Ledger

namespace Dispatch

variable {α : Type} {g : Ledger α}

/-- The ledger, with the effects so far, knows the session. -/
def IsKnown (g : Ledger α) (d : Dispatch α) : Prop :=
  (g.addAll d.effects).IsInOrder ∧ (g.addAll d.effects).Knows d.session

theorem isKnown_quiet {d : Dispatch α} (h : d.IsKnown g) {s : Session α} (hs : s.Agrees d.session)
    {e : Effect α} (he : e.IsQuiet) (timers : Timers) :
    IsKnown g ⟨s, timers, d.effects ++ [e]⟩ := by
  simp only [IsKnown, Ledger.addAll_concat, Ledger.add_of_isQuiet he]
  exact ⟨h.1, h.2.of_agrees hs⟩

theorem isKnown_request {d : Dispatch α} (h : d.IsKnown g) {purpose : Purpose}
    (hphase : purpose.phase = d.session.phase) (a b : Point α) :
    (d.request purpose a b).IsKnown g := by
  simp only [IsKnown, request_eq, Ledger.addAll_concat]
  exact Ledger.knows_request h.1 h.2 rfl hphase

variable [Scalar α] {config : Config α} {now : Int}

theorem isKnown_transition {d : Dispatch α} (h : d.IsKnown g) (phase : Phase) :
    (d.transition config now phase).IsKnown g := by
  by_cases hne : d.session.phase = phase
  · rwa [← hne, transition_self]
  · rw [transition_of_ne hne]
    have hentering : (d.entering phase).IsKnown g := by
      simp only [IsKnown, entering, Ledger.addAll_concat]
      exact ⟨h.1, h.2.enter phase⟩
    rcases (d.entering phase).arrange_cases config now d.session.phase with
      ⟨purpose, a, b, hphase, heq⟩ | ⟨-, heq⟩ | ⟨-, s, hs, heq⟩ <;> rw [heq]
    · exact isKnown_request hentering hphase a b
    · exact hentering
    · exact ⟨hentering.1, hentering.2.of_agrees hs⟩

theorem Act.isKnown {d d' : Dispatch α} (hact : Act config now d d') (h : d.IsKnown g) :
    d'.IsKnown g := by
  cases hact with
  | @note s hs => exact ⟨h.1, h.2.of_agrees hs⟩
  | @report e he => exact isKnown_quiet h (.refl _) he.isQuiet _
  | move phase => exact isKnown_transition h phase
  | ask p =>
    rcases askForStart_cases d p with heq | ⟨b, hphase, heq⟩ <;> rw [heq]
    · exact h
    · have hphase : Purpose.phase .toStart = d.session.phase := hphase.symm
      exact isKnown_request h hphase p b

end Dispatch

namespace Outcome

variable {α : Type} {g : Ledger α}

/-- The ledger, with the effects so far, knows the session that is loaded. -/
def IsKnown (g : Ledger α) (o : Outcome α) : Prop :=
  (g.addAll o.effects).IsInOrder
    ∧ ∀ s, o.navigator.session = some s → (g.addAll o.effects).Knows s

variable {o : Outcome α}

theorem isKnown_dispatch (h : o.IsKnown g) {s : Session α} (hs : o.navigator.session = some s) :
    (o.dispatch s).IsKnown g := ⟨h.1, h.2 s hs⟩

theorem isKnown_withDispatch {d : Dispatch α} (h : d.IsKnown g) : (o.withDispatch d).IsKnown g := by
  refine ⟨h.1, ?_⟩
  rintro _ ⟨⟩
  exact h.2

theorem isKnown_emit (h : o.IsKnown g) {e : Effect α} (he : e.IsQuiet) : (o.emit e).IsKnown g := by
  simp only [IsKnown, emit, Ledger.addAll_concat, Ledger.add_of_isQuiet he]
  exact h

theorem isKnown_unloaded (h : o.IsKnown g) : (o.withSession none).IsKnown g := by
  refine ⟨h.1, ?_⟩
  rintro _ ⟨⟩

theorem isKnown_drain (h : o.IsKnown g) : o.drain.IsKnown g := by
  rcases o.drain_cases with ⟨heq, -⟩ | ⟨t, -, heq⟩ <;> rw [heq]
  · exact h
  · exact isKnown_emit h trivial

theorem isKnown_load (h : o.IsKnown g) (area : Area α) (ranks : Nat → Nat) (route : Route α)
    (smoother : Smoother α) :
    (o.load area ranks (.ofRoute area.name route smoother)).IsKnown g := by
  have hstart := Ledger.knows_start h.1 area.name route smoother
  have hshown : (((o.withSession (some (.ofRoute area.name route smoother))).withTracker
      (some (.ofArea area ranks))).emit (.showRoute route)).IsKnown g := by
    simp only [IsKnown, emit, withSession, withTracker, Ledger.addAll_concat]
    refine ⟨hstart.1, ?_⟩
    rintro _ ⟨⟩
    exact hstart.2
  have hcoverage := isKnown_emit hshown (e := .showCoverage (Tracker.ofArea area).driven.toList
    (Tracker.ofArea area).undriven.toList) trivial
  have hphase := isKnown_emit hcoverage (e := .phaseChanged .setup .preview) trivial
  exact isKnown_emit hphase (e := .rememberArea area.name) trivial

variable [Scalar α] [Geodesy α] {config : Config α} {now : Int}

theorem Act.isKnown {o' : Outcome α} (hact : Act config now o o') (h : o.IsKnown g) :
    o'.IsKnown g := by
  cases hact with
  | guide hs hd => exact isKnown_withDispatch (hd.isKnown (isKnown_dispatch h hs))
  | aside => exact h
  | aim => exact isKnown_emit h trivial
  | @flush _ tracker =>
    have hkept : (o.withTracker (some tracker)).IsKnown g := h
    exact isKnown_emit hkept trivial
  | @promote _ tracker =>
    have hkept : (o.withTracker (some tracker)).IsKnown g := h
    exact isKnown_emit hkept trivial
  | drop => exact isKnown_drain (isKnown_unloaded h)
  | load hs ht area ranks route smoother => exact isKnown_load h area ranks route smoother

theorem Acts.isKnown {o' : Outcome α} (hacts : Acts config now o o') (h : o.IsKnown g) :
    o'.IsKnown g := by
  induction hacts with
  | refl => exact h
  | tail _ hact ih => exact hact.isKnown ih

end Outcome

section Due

variable {α : Type}

/-- A request is pending only in the phase it is for. -/
def Session.IsFitting (s : Session α) : Prop := ∀ r, s.pending = some r → r.purpose.phase = s.phase

theorem Ledger.Knows.isFitting {g : Ledger α} {s : Session α} (h : g.Knows s) : s.IsFitting :=
  fun r hr => (h.pending r hr).2

theorem Session.IsFitting.pending_eq_none {s : Session α} (h : s.IsFitting)
    (hphase : s.phase = .atStart) : s.pending = none := by
  rcases hr : s.pending with _ | r
  · rfl
  · have hpurpose := (h r hr).trans hphase
    cases hp : r.purpose <;> simp [hp, Purpose.phase] at hpurpose

/-- The request that is pending in the session that is loaded. -/
def Navigator.pending? (n : Navigator α) : Option (Request α) := n.session.bind (·.pending)

theorem Navigator.pending?_of_session {n : Navigator α} {s : Session α} (hs : n.session = some s) :
    n.pending? = s.pending := by
  simp [pending?, hs]

/-- A certain request, or none, is pending in its phase. -/
structure Outcome.IsStill (p : Option (Request α)) (o : Outcome α) : Prop where
  pending : o.navigator.pending? = p
  fitting : ∀ s, o.navigator.session = some s → s.IsFitting

namespace Outcome

variable {p : Option (Request α)} {o : Outcome α} {config : Config α} {now : Int}

theorem isStill_flush [Scalar α] (h : o.IsStill p) (area : String) :
    (o.flush config now area).IsStill p := by
  unfold flush
  split
  · exact h
  · split_ifs
    · exact h
    · exact ⟨h.pending, h.fitting⟩
    · split
      · exact ⟨h.pending, h.fitting⟩
      · exact h

variable [Scalar α] [Geodesy α]

/-- Where the settle delay runs no request is pending, and none is made when it is over. -/
theorem isStill_settle (h : o.IsStill p) : (o.inSession (·.settle config now)).IsStill p := by
  rcases hs : o.navigator.session with _ | s
  · rwa [inSession_none hs]
  · rw [inSession_some hs]
    rcases (o.dispatch s).settle_cases config now with
      heq | ⟨hphase, s', told, hs', -, heq⟩ <;> rw [heq]
    · rwa [withDispatch_dispatch hs]
    · have hnone : s.pending = none := (h.fitting s hs).pending_eq_none hphase
      have hs' : s'.pending = none := by
        rw [hs'.pending]
        simp [Session.enter, dispatch, hnone]
      refine ⟨?_, ?_⟩
      · rw [← h.pending, Navigator.pending?_of_session hs, hnone]
        exact hs'
      · rintro _ ⟨⟩ r hr
        exact absurd (hs'.symm.trans hr) (by simp)

theorem isStill_runTasks : ∀ (tasks : List Task) {o : Outcome α}, o.IsStill p →
    (tasks.foldl (runTask config now) o).IsStill p
  | [], _, h => h
  | .settle :: tasks, _, h => isStill_runTasks tasks (isStill_settle h)
  | .flush area :: tasks, _, h => isStill_runTasks tasks (isStill_flush h area)

end Outcome

theorem Navigator.isStill_due [Scalar α] [Geodesy α] (config : Config α) (now : Int)
    {n : Navigator α} (h : ∀ s, n.session = some s → s.IsFitting) :
    (n.due config now).IsStill n.pending? :=
  Outcome.isStill_runTasks _ ⟨rfl, h⟩

end Due

end Roadbook
