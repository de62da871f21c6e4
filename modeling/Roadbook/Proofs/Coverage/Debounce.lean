import Mathlib.Data.List.Induction
import Roadbook.Proofs.Coverage.Balance
import Roadbook.Proofs.Guidance.Reckoning

/-!
# When batches are handed out

The flush of an area is put off by each segment made driven (`Outcome.Delays`), so as long as the
clock does not go back and no time overflows every segment was made driven a quiet period before the
flush is due; and a flush hands out nothing while a batch is in flight. `Navigator.Debounced` says
so of a navigator and the answers given so far, a call keeps it (`Debounced.handle`), and so at any
call that hands out a batch it is quiet and no other batch is waited for
(`Navigator.batches_debounced`). A deadline that overflows may lie in the past
(`Navigator.batch_early`).
-/

namespace Roadbook

open Effect

variable {α : Type}

/-- Since an area was loaded these answers were given, and it is loaded still. -/
def IsLoadedSince (past : List (Answer α)) (area : Area α) (since : List (Answer α)) : Prop :=
  ∃ before load ranks, past = before ++ load :: since ∧ load.event = .areaLoaded area ranks
    ∧ load.result.isOk = true ∧ ∀ a ∈ since, ¬ a.Unloads

theorem isLoadedSince_load (past : List (Answer α)) {a : Answer α} {area : Area α}
    {ranks : Nat → Nat} (hevent : a.event = .areaLoaded area ranks) (hok : a.result.isOk = true) :
    IsLoadedSince (past ++ [a]) area [] :=
  ⟨past, a, ranks, rfl, hevent, hok, by simp⟩

theorem IsLoadedSince.concat {past since : List (Answer α)} {area : Area α} {a : Answer α}
    (h : IsLoadedSince past area since) (ha : ¬ a.Unloads) :
    IsLoadedSince (past ++ [a]) area (since ++ [a]) := by
  obtain ⟨before, load, ranks, rfl, hevent, hok, hkeeps⟩ := h
  exact ⟨before, load, ranks, by simp, hevent, hok,
    List.forall_mem_append.2 ⟨hkeeps, List.forall_mem_singleton.2 ha⟩⟩

theorem IsLoadedSince.subset {past since : List (Answer α)} {area : Area α}
    (h : IsLoadedSince past area since) : ∀ a ∈ since, a ∈ past := by
  obtain ⟨before, load, -, rfl, -⟩ := h
  exact fun a ha => List.mem_append_right _ (List.mem_cons_of_mem _ ha)

/-- The last call counts, unless it loaded the area. -/
theorem IsLoadedSince.last_mem {past since : List (Answer α)} {area : Area α} {a : Answer α}
    (h : IsLoadedSince (past ++ [a]) area since)
    (ha : ∀ area ranks, a.event ≠ .areaLoaded area ranks) : a ∈ since := by
  obtain ⟨before, load, ranks, heq, hevent, -⟩ := h
  rcases List.eq_nil_or_concat since with rfl | ⟨earlier, last, rfl⟩
  · obtain ⟨-, hload⟩ := List.append_inj' heq rfl
    exact absurd (List.singleton_inj.1 hload ▸ hevent) (ha area ranks)
  · rw [List.concat_eq_append, ← List.cons_append, ← List.append_assoc] at heq
    obtain ⟨-, hlast⟩ := List.append_inj' heq rfl
    rw [List.singleton_inj.1 hlast, List.concat_eq_append]
    exact List.mem_append_right _ (List.mem_singleton_self _)

/-- By a time all the segments made driven have been so for a quiet period. -/
def IsQuiet (config : Config α) (since : List (Answer α)) (now : Int) : Prop :=
  ∀ a ∈ since, ∀ area ids percent, .segmentsDriven area ids percent ∈ a.effects →
    a.now + config.coverage.quiet ≤ now

/-- Each batch handed out was followed by the outcome of one. The event of a call comes after the
tasks that are due by then, and so after the batch that these hand out. -/
def IsSettled (area : String) (since : List (Answer α)) : Prop :=
  ∀ a later, a :: later <:+ since → ∀ batch, .persist batch false ∈ a.effects →
    ∃ a' ∈ a :: later, ∃ success, a'.event = .flushed area success

theorem Effect.mem_handedOut {e : Effect α} {batch : Batch} :
    batch ∈ e.handedOut ↔ e = .persist batch false := by
  cases e with
  | persist b last => cases last <;> simp [handedOut, eq_comm]
  | _ => simp [handedOut]

theorem Effect.mem_flatMap_handedOut {effects : List (Effect α)} {batch : Batch} :
    batch ∈ effects.flatMap handedOut ↔ .persist batch false ∈ effects := by
  simp [List.mem_flatMap, mem_handedOut]

theorem Effect.exists_of_mem_drivenIds {effects : List (Effect α)} {id : Nat}
    (h : id ∈ effects.flatMap drivenIds) :
    ∃ area ids percent, .segmentsDriven area ids percent ∈ effects := by
  obtain ⟨e, he, hid⟩ := List.mem_flatMap.1 h
  cases e with
  | segmentsDriven area ids percent => exact ⟨area, ids, percent, he⟩
  | _ => cases hid

theorem IsQuiet.mono {config : Config α} {since : List (Answer α)} {due now : Int}
    (h : IsQuiet config since due) (hle : due ≤ now) : IsQuiet config since now :=
  fun a ha area ids percent hdriven => (h a ha area ids percent hdriven).trans hle

theorem IsQuiet.concat {config : Config α} {since : List (Answer α)} {a : Answer α} {now : Int}
    (h : IsQuiet config since now)
    (ha : ∀ area ids percent, .segmentsDriven area ids percent ∈ a.effects →
      a.now + config.coverage.quiet ≤ now) : IsQuiet config (since ++ [a]) now :=
  List.forall_mem_append.2 ⟨h, List.forall_mem_singleton.2 ha⟩

theorem isQuiet_of_clock {config : Config α} {since : List (Answer α)} {now : Int}
    (h : ∀ a ∈ since, a.now ≤ now) : IsQuiet config since (now + config.coverage.quiet) := by
  intro a ha _ _ _ _
  have hle := h a ha
  omega

/-- One more call leaves every batch settled if it hands out none, or takes in an outcome. -/
theorem isSettled_concat {area : String} {since : List (Answer α)} {a : Answer α}
    (h : (IsSettled area since ∧ ∀ batch, .persist batch false ∉ a.effects)
      ∨ ∃ success, a.event = .flushed area success) : IsSettled area (since ++ [a]) := by
  intro b later hsuffix batch hbatch
  obtain hnil | ⟨later', heq, hsince⟩ := List.suffix_concat_iff.1 hsuffix
  · cases hnil
  rcases h with ⟨h, hno⟩ | hflushed
  · cases later' with
    | nil =>
      cases heq
      exact absurd hbatch (hno batch)
    | cons c later' =>
      cases heq
      obtain ⟨a', ha', hflushed⟩ := h b later' hsince batch hbatch
      exact ⟨a', List.mem_append_left [a] ha', hflushed⟩
  · refine ⟨a, ?_, hflushed⟩
    rw [heq]
    exact List.mem_append_right _ List.mem_cons_self

/-- The flush of an area is due at some time. -/
def Navigator.IsDueAt (n : Navigator α) (area : String) (due : Int) : Prop :=
  ⟨due, .flush area⟩ ∈ n.timers.toList

namespace Tracker

variable {t t' : Tracker α} {told new : List (Effect α)}

theorem Flushed.not_driven (h : t.Flushed t' told) (area : String) (ids : List Nat) (percent : α) :
    .segmentsDriven area ids percent ∉ told := by
  cases h <;> simp

/-- With nothing in flight afterwards nothing was handed out. -/
theorem Flushed.of_free (h : t.Flushed t' told) (hfree : t'.inFlight = none) :
    t.inFlight = none ∧ told = [] := by
  cases h with
  | idle => exact ⟨hfree, rfl⟩
  | begun hb =>
    obtain ⟨-, -, -, rfl⟩ := beginFlush_eq_some.1 hb
    cases hfree

/-- An event hands out nothing of an area that stays loaded, and only an outcome ends a flight. -/
theorem Answered.keeps [Scalar α] [Geodesy α] {config : Config α} {a : Answer α}
    (h : t.Answered config a t' new) : t'.area = t.area
      ∧ (∀ batch last, .persist batch last ∉ new)
      ∧ (t'.inFlight = none →
        t.inFlight = none ∨ ∃ success, a.event = .flushed t.area success) := by
  cases h with
  | quiet => exact ⟨rfl, by simp, .inl⟩
  | completed hevent =>
    exact ⟨(t.coversAlike_completeFlush _).area, by simp, fun _ => .inr ⟨_, hevent⟩⟩
  | missed => exact ⟨rfl, by simp, .inl⟩
  | observed _ hob =>
    cases hob
    exact ⟨rfl, by simp, .inl⟩

end Tracker

namespace Outcome

variable [Scalar α] [Geodesy α] {config : Config α} {now : Int} {area : String} {o o' : Outcome α}
  {times : List Int}

/-- A batch is handed out when the flush of its area runs. -/
theorem persist_runTasks {batch : Batch} : ∀ (tasks : List Task) {o : Outcome α},
    .persist batch false ∈ (tasks.foldl (runTask config now) o).effects →
      .persist batch false ∈ o.effects ∨ .flush batch.area ∈ tasks
  | [], _, h => .inl h
  | .settle :: tasks, o, h => by
    refine (persist_runTasks tasks h).imp (fun hbatch => ?_) (List.mem_cons_of_mem _)
    have halike : (o.inSession (·.settle config now)).BooksAlike o :=
      booksAlike_inSession Dispatch.acts_settle o
    rw [← persist_mem_booked] at hbatch ⊢
    rwa [← halike.booked]
  | .flush area :: tasks, o, h => by
    rcases persist_runTasks tasks h with hbatch | htask
    · rcases o.flush_cases area with halike | ⟨t, batch', tracker, ht, harea, hb, heq⟩
      · rw [runTask, ← persist_mem_booked, halike.booked, persist_mem_booked] at hbatch
        exact .inl hbatch
      · rw [runTask, heq] at hbatch
        refine (List.mem_append.1 hbatch).imp_right fun hbatch => ?_
        obtain ⟨-, -, rfl, -⟩ := Tracker.beginFlush_eq_some.1 hb
        cases List.mem_singleton.1 hbatch
        subst harea
        exact List.mem_cons_self
    · exact .inr (List.mem_cons_of_mem _ htask)

/-- Where something is booked the flush of an area is put off, to a time reckoned with. -/
def Delays (config : Config α) (now : Int) (times : List Int) (area : String) (o o' : Outcome α) :
    Prop :=
  booked o'.effects = booked o.effects ∨ ∀ due, o'.navigator.IsDueAt area due →
    now + config.coverage.quiet ∈ times ∧ due = Scalar.wrap α (now + config.coverage.quiet)

omit [Geodesy α] in
theorem delays_inSession {operation : Dispatch α → Dispatch α}
    (h : ∀ d, Dispatch.Acts config now d (operation d)) (o : Outcome α) :
    o.Delays config now times area (o.inSession operation) := .inl (booksAlike_inSession h o).booked

theorem delays_cover {fix : Fix α} {t : Tracker α} (ht : o.navigator.tracker = some t)
    (h : o.cover config now fix = .ok o') :
    o.Delays config now (o.reckonedCover config now fix) t.area o' := by
  rcases mem_reckonedCover h with rfl | hmem
  · exact .inl rfl
  · rcases cover_cases h with rfl | ⟨u, hits, tracker, hu, hob, -, rfl⟩
    · exact .inl rfl
    · refine .inr fun due hdue => ⟨hmem, ?_⟩
      obtain rfl := Option.some.inj (ht.symm.trans hu)
      cases hob
      rcases Timers.mem_schedule.1 hdue with heq | ⟨-, hne⟩
      · cases heq
        rfl
      · exact absurd rfl hne

theorem delays_onFix {fix : Fix α} {t : Tracker α} (ht : o.navigator.tracker = some t)
    (h : o.onFix config now fix = .ok o') :
    o.Delays config now (o.reckonedFix config now fix) t.area o' := by
  unfold onFix at h
  split at h
  · cases h
    exact delays_inSession Dispatch.acts_loseSignal o
  · rename_i hgood
    have halike : (o.inSession (·.applyFix config now fix)).BooksAlike o :=
      booksAlike_inSession (Dispatch.acts_applyFix · fix) o
    have haimed := booksAlike_aim (o.inSession (·.applyFix config now fix)) fix
    have hcovered := delays_cover ((haimed.tracker.trans halike.tracker).trans ht) h
    rw [Delays, haimed.booked, halike.booked] at hcovered
    refine hcovered.imp_right fun hlate due hdue => ⟨?_, (hlate due hdue).2⟩
    have hmem := (hlate due hdue).1
    rcases hs : o.navigator.session with _ | s
    · rw [inSession_none hs] at hmem
      unfold reckonedCover at hmem
      rw [aim_navigator] at hmem
      simp [ht, Navigator.phase, hs, Phase.IsUnderway] at hmem
    · rw [reckonedFix_of_good hs hgood]
      unfold reckonedCover at hmem ⊢
      rw [aim_navigator] at hmem
      exact List.mem_cons_of_mem _ (List.mem_append_right _ (List.mem_append_right _ hmem))

/-- What an event does to the flush of the area that stays loaded. -/
theorem delays_respond {t : Tracker α} (ht : o.navigator.tracker = some t) {event : Event α}
    (hok : Navigator.respond config now o event = .ok o') (hkeeps : ¬ event.Unloads) :
    o.Delays config now (o.reckonedEvent config now event) t.area o' := by
  cases event with
  | areaLoaded area => exact absurd trivial hkeeps
  | finish => exact absurd trivial hkeeps
  | fix fix => exact delays_onFix ht hok
  | flushed area success =>
    cases hok
    exact .inl (congrArg Effect.booked (onFlushed_effects ..))
  | directions id found =>
    cases hok
    exact .inl (booksAlike_resolve id found o).booked
  | view view =>
    cases hok
    exact .inl rfl
  | begin =>
    cases hok
    exact delays_inSession Dispatch.acts_begin o
  | acceptOffer =>
    cases hok
    exact delays_inSession Dispatch.acts_accept o
  | dismissOffer =>
    cases hok
    exact delays_inSession Dispatch.acts_dismiss o
  | tick =>
    cases hok
    exact delays_inSession Dispatch.acts_checkSignal o

end Outcome

namespace Navigator

open Outcome

variable [Scalar α] [Geodesy α] {config : Config α} {now : Int} {n : Navigator α} {t : Tracker α}
  {event : Event α} {past : List (Answer α)}

/-- A batch is handed out when the flush of its area is due. -/
theorem persist_due {batch : Batch} (h : .persist batch false ∈ (n.due config now).effects) :
    ∃ due, n.IsDueAt batch.area due ∧ due ≤ now := by
  have htask := (persist_runTasks _ h).resolve_left (by simp [withTimers])
  obtain ⟨⟨due, task⟩, htimer, hdue, rfl⟩ := Timers.mem_popDue_tasks.1 htask
  exact ⟨due, htimer, hdue⟩

/-- What a call does while the area stays loaded. -/
structure Continues (config : Config α) (t : Tracker α) (n : Navigator α) (a : Answer α) :
    Prop where
  keeps : ¬ a.Unloads
  /-- A batch in flight stays there until an outcome is taken in. -/
  tracker : ∃ t', a.navigator.tracker = some t' ∧ t'.area = t.area ∧ (t'.inFlight = none →
    (t.inFlight = none ∧ ∀ batch, .persist batch false ∉ a.effects)
      ∨ ∃ success, a.event = .flushed t.area success)
  /-- Making segments driven puts the flush of the area off. -/
  flush : ∀ due, a.navigator.IsDueAt t.area due →
    (a.now + config.coverage.quiet ∈ n.reckoned config a.now a.event
      ∧ due = Scalar.wrap α (a.now + config.coverage.quiet))
    ∨ n.IsDueAt t.area due ∧ ∀ area ids percent, .segmentsDriven area ids percent ∉ a.effects
  told : a.effects = [] ∨ ∃ new, booked a.effects = booked (n.due config a.now).effects ++ new
    ∧ ∀ batch last, .persist batch last ∉ new

/-- A call that does not unload the area goes on with it. -/
theorem continues_answer (ht : n.tracker = some t)
    (hkeeps : ¬ (n.answer config now event).Unloads) :
    Continues config t n (n.answer config now event) := by
  obtain ⟨t₁, ht₁, hflushed⟩ := flushed_due ht config now
  have hset : ∀ due, (n.answer config now event).navigator.IsDueAt t.area due →
      (now + config.coverage.quiet ∈ n.reckoned config now event
        ∧ due = Scalar.wrap α (now + config.coverage.quiet)) ∨ n.IsDueAt t.area due :=
    fun due hdue => (mem_timers_handle hdue).symm.imp_right And.left
  rcases answer_cases config n now event with ⟨o, hok, ha⟩ | ⟨refusal, -, ha⟩ <;>
    rw [ha] at hkeeps hset ⊢
  · have hstays : ¬ event.Unloads := fun h => hkeeps ⟨h, rfl⟩
    obtain ⟨t₂, new, ht₂, hbooked, hanswered⟩ := answered_respond ht₁ hok hstays
    obtain ⟨harea, hno, hflight⟩ := hanswered.keeps
    have hdelays := delays_respond ht₁ hok hstays
    rw [hflushed.coversAlike.area] at harea hflight hdelays
    refine ⟨hkeeps, ⟨t₂, ht₂, harea, fun hfree => ?_⟩, fun due hdue => ?_, .inr ⟨new, hbooked, hno⟩⟩
    · refine (hflight hfree).imp_left fun hfree => ?_
      obtain ⟨hfree, hnone⟩ := hflushed.of_free hfree
      refine ⟨hfree, fun batch hbatch => hno batch false ?_⟩
      have hmem : .persist batch false ∈ booked o.effects := persist_mem_booked.2 hbatch
      rwa [hbooked, hnone, List.nil_append] at hmem
    · rcases hdelays with hsame | hlate
      · refine (hset due hdue).imp_right fun hold => ⟨hold, ?_⟩
        intro area ids percent hdriven
        have hmem : .segmentsDriven area ids percent ∈ booked o.effects :=
          List.mem_filter.2 ⟨hdriven, rfl⟩
        rw [hsame] at hmem
        exact hflushed.not_driven area ids percent hmem
      · exact .inl ((hlate due hdue).imp_left (List.mem_append_right _))
  · refine ⟨hkeeps, ⟨t₁, ht₁, hflushed.coversAlike.area,
      fun hfree => .inl ⟨(hflushed.of_free hfree).1, ?_⟩⟩,
      fun due hdue => (hset due hdue).imp_right fun hold => ⟨hold, ?_⟩, .inl rfl⟩
    · simp [Answer.effects, Except.toOption]
    · simp [Answer.effects, Except.toOption]

/-- At a time the tracker of the area that is loaded can be flushed only after a quiet period, and
only when no batch that was handed out is waited for. -/
def Debounced (config : Config α) (n : Navigator α) (past : List (Answer α)) : Prop :=
  ∀ t, n.tracker = some t → ∃ area since, IsLoadedSince past area since ∧ t.area = area.name
    ∧ (∀ due, n.IsDueAt area.name due → IsQuiet config since due)
    ∧ (t.inFlight = none → IsSettled area.name since)

theorem Debounced.goesOn (h : Debounced config n past) (ht : n.tracker = some t) {a : Answer α}
    (hcontinues : Continues config t n a) (hclock : ∀ b ∈ past, b.now ≤ a.now)
    (hrange : ¬ n.Overflows config a.now a.event) :
    Debounced config a.navigator (past ++ [a]) := by
  intro t' ht'
  obtain ⟨area, since, hsince, harea, hquiet, hsettled⟩ := h t ht
  obtain ⟨u, hu, harea', hflight⟩ := hcontinues.tracker
  obtain rfl := Option.some.inj (hu.symm.trans ht')
  have hclock : ∀ b ∈ since ++ [a], b.now ≤ a.now := List.forall_mem_append.2
    ⟨fun b hb => hclock b (hsince.subset b hb), by simp⟩
  rw [← harea] at hquiet hsettled
  refine ⟨area, since ++ [a], hsince.concat hcontinues.keeps, harea'.trans harea, ?_, ?_⟩
  · rw [← harea]
    intro due hdue
    rcases hcontinues.flush due hdue with ⟨hmem, rfl⟩ | ⟨hdue, hno⟩
    · rw [fits_of_not_overflows hrange hmem]
      exact isQuiet_of_clock hclock
    · exact (hquiet due hdue).concat fun area ids percent hdriven =>
        absurd hdriven (hno area ids percent)
  · rw [← harea]
    intro hfree
    exact isSettled_concat ((hflight hfree).imp_left (.imp_left hsettled))

/-- Where no area is loaded, only loading one comes to anything. -/
theorem handle_vacant (config : Config α) (now : Int) (view : View)
    (hevent : ∀ area ranks, event ≠ .areaLoaded area ranks) :
    ∃ view', (vacant view : Navigator α).handle config now event = (.ok [], vacant view') := by
  cases event with
  | areaLoaded area ranks => exact absurd rfl (hevent area ranks)
  | fix fix =>
    have hresponse : respond config now ((vacant view : Navigator α).due config now) (.fix fix)
        = .ok ⟨vacant view, []⟩ := by
      unfold respond Outcome.onFix
      dsimp only
      split <;> rfl
    exact ⟨view, by simp only [Navigator.handle, hresponse]⟩
  | view view' => exact ⟨view', rfl⟩
  | _ => exact ⟨view, rfl⟩

/-- Where no area is loaded, none is but by being loaded, and otherwise nothing is told. -/
theorem Reachable.answer_of_vacant (hn : Reachable config n) (ht : n.tracker = none)
    (h : ¬ (n.answer config now event).Unloads) :
    (n.answer config now event).effects = []
      ∧ (n.answer config now event).navigator.tracker = none := by
  have hvacant := hn.aligned.eq_vacant (hn.isPaired.session_eq_none ht)
  by_cases hevent : ∃ area ranks, event = .areaLoaded area ranks
  · obtain ⟨area, ranks, rfl⟩ := hevent
    rcases answer_cases config n now (.areaLoaded area ranks) with ⟨o, -, ha⟩ | ⟨refusal, -, ha⟩ <;>
      rw [ha] at h ⊢
    · exact absurd ⟨trivial, rfl⟩ h
    · have hdue : (n.due config now).navigator.tracker = none := by
        rw [hvacant]
        rfl
      exact ⟨rfl, hdue⟩
  · simp only [not_exists] at hevent
    obtain ⟨view', heq⟩ := handle_vacant config now n.view hevent
    rw [← hvacant] at heq
    simp only [answer, heq]
    exact ⟨rfl, rfl⟩

omit [Geodesy α] in
/-- What is handed out of an area that is unloaded is handed out for a last time. -/
theorem unload_booked (config : Config α) (now : Int) {o : Outcome α}
    (h : o.navigator.Aligned []) :
    ∃ last, booked (o.unload config now).effects = booked o.effects ++ last
      ∧ ∀ e ∈ last, ∃ batch, e = .persist batch true := by
  rcases ht : o.navigator.tracker with _ | t
  · have hs : o.navigator.session = none := h.paired.session_eq_none ht
    refine ⟨[], ?_, by simp⟩
    rw [unload_of_vacant (h.eq_vacant hs), List.append_nil]
  · obtain ⟨last, hbooked, hlast⟩ := booked_unload config now ht
    refine ⟨last, hbooked, ?_⟩
    rcases hlast with ⟨rfl, -⟩ | rfl <;> simp

/-- A call that unloads the area leaves none, or another one of which nothing is scheduled. -/
theorem Reachable.answer_of_unloads (hn : Reachable config n)
    (h : (n.answer config now event).Unloads) :
    (∃ last, booked (n.answer config now event).effects
        = booked (n.due config now).effects ++ last ∧ ∀ e ∈ last, ∃ batch, e = .persist batch true)
      ∧ ((n.answer config now event).navigator.tracker = none
        ∨ ∃ area ranks session view, event = .areaLoaded area ranks
          ∧ (n.answer config now event).navigator = loadedWith area ranks session view) := by
  have haligned : (n.due config now).navigator.Aligned [] := aligned_runDue hn.aligned
  obtain ⟨last, hbooked, hlast⟩ := unload_booked config now haligned
  obtain ⟨hevent, hok⟩ := h
  cases event with
  | areaLoaded area ranks =>
    rcases handle_areaLoaded_cases config n now area ranks with
      ⟨route, hroute, hroom⟩ | ⟨_, _, heq, -⟩
    · have heq := hn.handle_areaLoaded now ranks hroute hroom
      simp only [answer, heq]
      refine ⟨⟨last, ?_, hlast⟩, .inr ⟨area, ranks, _, _, rfl, rfl⟩⟩
      have hshown : booked (area.shown route) = [] := rfl
      show booked (_ ++ area.shown route) = _
      rw [booked_append, hbooked, hshown, List.append_nil]
    · simp only [answer, heq] at hok
      cases hok
  | finish =>
    simp only [answer, n.handle_finish config now]
    exact ⟨⟨last, hbooked, hlast⟩, .inl rfl⟩
  | _ => exact hevent.elim

/-- An area that is loaded after a call was loaded by it or stays loaded. -/
theorem Reachable.loaded_cases (hn : Reachable config n)
    (ht : (n.answer config now event).navigator.tracker = some t) :
    (∃ area ranks session view, event = .areaLoaded area ranks
        ∧ (n.answer config now event).Unloads
        ∧ (n.answer config now event).navigator = loadedWith area ranks session view)
      ∨ ¬ (n.answer config now event).Unloads ∧ ∃ before, n.tracker = some before := by
  by_cases hunloads : (n.answer config now event).Unloads
  · obtain ⟨-, hnone | ⟨area, ranks, session, view, hevent, hloaded⟩⟩ :=
      hn.answer_of_unloads hunloads
    · cases hnone.symm.trans ht
    · exact .inl ⟨area, ranks, session, view, hevent, hunloads, hloaded⟩
  · rcases hbefore : n.tracker with _ | before
    · cases (hn.answer_of_vacant hbefore hunloads).2.symm.trans ht
    · exact .inr ⟨hunloads, before, rfl⟩

theorem Debounced.handle (h : Debounced config n past) (hn : Reachable config n) {now : Int}
    {event : Event α} (hclock : ∀ b ∈ past, b.now ≤ now)
    (hrange : ¬ n.Overflows config now event) :
    Debounced config (n.handle config now event).2 (past ++ [n.answer config now event]) := by
  intro t' ht'
  rcases hn.loaded_cases ht' with
    ⟨area, ranks, session, view, rfl, hunloads, hloaded⟩ | ⟨hunloads, t, ht⟩
  · have hnav : (n.handle config now (.areaLoaded area ranks)).2
        = loadedWith area ranks session view := hloaded
    rw [hnav] at ht' ⊢
    cases ht'
    refine ⟨area, [], isLoadedSince_load past rfl hunloads.2, by simp, ?_, ?_⟩
    · intro due hdue
      cases hdue
    · intro _ a later hsuffix
      cases List.suffix_nil.1 hsuffix
  · exact h.goesOn ht (continues_answer ht hunloads) hclock hrange t' ht'

theorem debounced_run {calls : List (Int × Event α)}
    (hclock : (calls.map (·.1)).Pairwise (· ≤ ·)) (hrange : fresh.IsInRange config calls) :
    Debounced config (fresh.run config calls) (fresh.log config calls) := by
  induction calls using List.reverseRecOn with
  | nil =>
    intro t ht
    cases ht
  | append_singleton calls call ih =>
    obtain ⟨now, event⟩ := call
    rw [List.map_append, List.pairwise_append] at hclock
    have hpast : ∀ b ∈ fresh.log config calls, b.now ≤ now := fun b hb => by
      have hmem := List.mem_map_of_mem (f := (·.now)) hb
      rw [log_times] at hmem
      exact hclock.2.2 b.now hmem now (by simp)
    obtain ⟨hbefore, hlast, -⟩ := isInRange_append.1 hrange
    rw [log_append, run, List.foldl_append]
    exact (ih hclock.1 hbefore).handle (Reachable.fresh.run calls) hpast hlast

/-- The tasks that are due hand out what is pending, if anything at all. -/
theorem Reachable.booked_due (hn : Reachable config n) (now : Int) :
    booked (n.due config now).effects = [] ∨ ∃ t batch t', n.tracker = some t
      ∧ t.beginFlush = (some batch, t')
      ∧ booked (n.due config now).effects = [.persist batch false] := by
  rcases ht : n.tracker with _ | t
  · have hs : n.session = none := hn.isPaired.session_eq_none ht
    rw [hn.aligned.eq_vacant hs]
    exact .inl rfl
  · obtain ⟨t', -, hflushed⟩ := flushed_due ht config now
    generalize booked (n.due config now).effects = told at hflushed
    cases hflushed with
    | idle => exact .inl rfl
    | begun hb => exact .inr ⟨t, _, t', rfl, hb, rfl⟩

/-- After the tasks that are due nothing is handed out but to unload the area. -/
theorem Reachable.booked_answer (hn : Reachable config n) (now : Int) (event : Event α) :
    (n.answer config now event).effects = []
      ∨ ∃ new, booked (n.answer config now event).effects
          = booked (n.due config now).effects ++ new
        ∧ ∀ batch last, .persist batch last ∈ new →
          last = true ∧ (n.answer config now event).Unloads := by
  by_cases hunloads : (n.answer config now event).Unloads
  · obtain ⟨⟨new, hbooked, hnew⟩, -⟩ := hn.answer_of_unloads hunloads
    refine .inr ⟨new, hbooked, fun batch last hbatch => ⟨?_, hunloads⟩⟩
    obtain ⟨_, hlast⟩ := hnew _ hbatch
    cases hlast
    rfl
  · rcases ht : n.tracker with _ | t
    · exact .inl (hn.answer_of_vacant ht hunloads).1
    · exact (continues_answer ht hunloads).told.imp_right fun ⟨new, hbooked, hno⟩ =>
        ⟨new, hbooked, fun batch last hbatch => absurd hbatch (hno batch last)⟩

/-- A batch that is handed out while the area stays loaded is the first thing booked of its call,
and the only one. -/
theorem Reachable.batch_first (hn : Reachable config n) {batch : Batch}
    {before after : List (Effect α)}
    (h : (n.answer config now event).effects = before ++ .persist batch false :: after) :
    booked before = [] ∧ (∀ other, .persist other false ∉ after)
      ∧ .persist batch false ∈ (n.due config now).effects
      ∧ ∃ t t', n.tracker = some t ∧ t.beginFlush = (some batch, t') := by
  rcases hn.booked_answer now event with hnone | ⟨new, hbooked, hnew⟩
  · rw [hnone] at h
    simp at h
  have hsplit : booked before ++ .persist batch false :: booked after
      = booked (n.due config now).effects ++ new := by
    rw [← hbooked, h, booked_append]
    rfl
  have hno : ∀ other, .persist other false ∉ new := fun other hother => by
    cases (hnew other false hother).1
  rcases hn.booked_due now with hdue | ⟨t, first, t', ht, hb, hdue⟩
  · rw [hdue, List.nil_append] at hsplit
    exact absurd (hsplit ▸ List.mem_append_right _ List.mem_cons_self) (hno batch)
  rw [hdue, List.singleton_append] at hsplit
  obtain ⟨hnil, hsame⟩ | ⟨more, -, hsame⟩ := List.append_eq_cons_iff.1 hsplit
  · obtain ⟨⟨rfl, -⟩, rfl⟩ := by simpa using hsame
    refine ⟨hnil, fun other hother => hno other (persist_mem_booked.2 hother), ?_, t, t', ht, hb⟩
    rw [← persist_mem_booked, hdue]
    exact List.mem_singleton_self _
  · rw [hsame] at hno
    exact absurd (List.mem_append_right more List.mem_cons_self) (hno batch)

/-- Whatever the calls, as long as the clock does not go back and no time overflows: a batch that is
handed out while its area stays loaded comes first of what a call has stored or made driven, and is
the only one. By then all the segments made driven since the area was loaded have been so for a
quiet period, and each batch handed out since then was followed by the outcome of one. Batches are
handed out for a last time only when the area is unloaded. -/
theorem batches_debounced {calls : List (Int × Event α)}
    (hclock : (calls.map (·.1)).Pairwise (· ≤ ·)) (hrange : fresh.IsInRange config calls)
    {rest : List (Answer α)} {a : Answer α} (hlog : fresh.log config calls = past ++ a :: rest) :
    (∀ batch before after, a.effects = before ++ .persist batch false :: after →
      (∀ e ∈ before, e.isBooked = false) ∧ (∀ other, .persist other false ∉ after)
        ∧ ∃ area since, IsLoadedSince past area since ∧ batch.area = area.name
          ∧ IsQuiet config since a.now ∧ IsSettled area.name since)
      ∧ ∀ batch, .persist batch true ∈ a.effects → a.Unloads := by
  obtain ⟨earlier, now, event, later, rfl, rfl, rfl⟩ := log_eq_append hlog
  have hn : Reachable config (fresh.run config earlier) := Reachable.fresh.run earlier
  rw [List.map_append, List.pairwise_append] at hclock
  refine ⟨fun batch before after heffects => ?_, fun batch hbatch => ?_⟩
  · obtain ⟨hfirst, honly, hdue, t, t', ht, hb⟩ := hn.batch_first heffects
    obtain ⟨hfree, -, rfl, -⟩ := Tracker.beginFlush_eq_some.1 hb
    have hbefore := (isInRange_append.1 hrange).1
    obtain ⟨area, since, hsince, harea, hquiet, hsettled⟩ := debounced_run hclock.1 hbefore t ht
    obtain ⟨due, htimer, hle⟩ := persist_due hdue
    have hpast : t.area = area.name := harea
    refine ⟨fun e he => ?_, honly, area, since, hsince, harea, ?_, hsettled hfree⟩
    · simpa using List.filter_eq_nil_iff.1 hfirst e he
    · exact (hquiet due (hpast ▸ htimer)).mono hle
  · rcases hn.booked_answer now event with hnone | ⟨new, hbooked, hnew⟩
    · rw [hnone] at hbatch
      cases hbatch
    rw [← persist_mem_booked, hbooked] at hbatch
    rcases List.mem_append.1 hbatch with hbatch | hbatch
    · exact absurd (effects_due config now _ _ (persist_mem_booked.1 hbatch)) id
    · exact (hnew batch true hbatch).2

end Navigator

namespace Trial

/-- The way to the start of the road, and a quiet period there. -/
def calm : List (Int × Event ℚ) :=
  [(0, .areaLoaded (area "north")), (0, seen (-5) 0), (0, .begin), (0, seen 0 0), (2000, .tick)]

/-- Batches are put off for as long as there are milliseconds. -/
def endless : Config ℚ :=
  { Config.standard with
    coverage := { Config.Coverage.standard with quiet := twoTo 63 - 1 } }

/-- To the start of the road, and a look at the clock there. -/
def brisk : List (Int × Event ℚ) :=
  [(1, .areaLoaded (area "north")), (1, seen 0 1), (1, .begin), (1, seen 0 1), (1, .tick)]

end Trial

namespace Navigator

attribute [local instance] Trial.wrapping

/-- The segment at the start of the road is handed out once it is quiet. -/
theorem batches_debounced_calm : ∃ past a,
    fresh.log .standard Trial.calm = past ++ [a] ∧ .persist ⟨"north", [1]⟩ false ∈ a.effects
      ∧ ∃ area since, IsLoadedSince past area since ∧ area.name = "north"
        ∧ IsQuiet Config.standard since a.now := by
  have hclock : (Trial.calm.map (·.1)).Pairwise (· ≤ ·) := by decide
  have hrange : fresh.IsInRange .standard Trial.calm := by decide +kernel
  have hlog : fresh.log .standard Trial.calm = fresh.log .standard (Trial.calm.take 4)
      ++ [(fresh.run .standard (Trial.calm.take 4)).answer .standard 2000 .tick] :=
    log_append fresh (Trial.calm.take 4) (Trial.calm.drop 4)
  have hout : ((fresh.run .standard (Trial.calm.take 4)).answer .standard 2000
      .tick).effects.flatMap handedOut = [⟨"north", [1]⟩] := by decide +kernel
  have hbatch := mem_flatMap_handedOut.1 (hout ▸ List.mem_singleton_self _)
  obtain ⟨before, after, heffects⟩ := List.append_of_mem hbatch
  obtain ⟨-, -, area, since, hsince, harea, hquiet, -⟩ :=
    (batches_debounced hclock hrange hlog).1 _ before after heffects
  exact ⟨_, _, hlog, hbatch, area, since, hsince, harea.symm, hquiet⟩

/-- Where the deadline of a flush overflows, a segment is handed out when it is made driven. -/
theorem batch_early : ∃ (past : List (Answer ℚ)) (a : Answer ℚ),
    0 ≤ Trial.endless.coverage.quiet ∧ (Trial.brisk.map (·.1)).Pairwise (· ≤ ·)
      ∧ fresh.log Trial.endless Trial.brisk = past ++ [a]
      ∧ .persist ⟨"north", [1]⟩ false ∈ a.effects
      ∧ ∀ area since, IsLoadedSince past area since → ¬ IsQuiet Trial.endless since a.now := by
  have hlog : fresh.log Trial.endless Trial.brisk = fresh.log Trial.endless (Trial.brisk.take 4)
      ++ [(fresh.run Trial.endless (Trial.brisk.take 4)).answer Trial.endless 1 .tick] :=
    log_append fresh (Trial.brisk.take 4) (Trial.brisk.drop 4)
  have hpast : fresh.log Trial.endless (Trial.brisk.take 4)
      = fresh.log Trial.endless (Trial.brisk.take 3)
        ++ [(fresh.run Trial.endless (Trial.brisk.take 3)).answer Trial.endless 1
          (Trial.seen 0 1)] :=
    log_append fresh (Trial.brisk.take 3) [(1, Trial.seen 0 1)]
  have hout : ((fresh.run Trial.endless (Trial.brisk.take 4)).answer Trial.endless 1
      .tick).effects.flatMap handedOut = [⟨"north", [1]⟩] := by decide +kernel
  have hdriven : ((fresh.run Trial.endless (Trial.brisk.take 3)).answer Trial.endless 1
      (Trial.seen 0 1)).effects.flatMap drivenIds = [1] := by decide +kernel
  refine ⟨_, _, by decide, by decide, hlog,
    mem_flatMap_handedOut.1 (hout ▸ List.mem_singleton_self _), fun area since hsince hquiet => ?_⟩
  rw [hpast] at hsince
  obtain ⟨name, ids, percent, hmem⟩ :=
    exists_of_mem_drivenIds (hdriven ▸ List.mem_singleton_self (1 : Nat))
  have hlate := hquiet _ (hsince.last_mem fun _ _ hload => nomatch hload) name ids percent hmem
  exact absurd hlate (by decide)

end Navigator

end Roadbook
