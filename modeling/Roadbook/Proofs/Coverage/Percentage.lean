import Mathlib.Algebra.Order.Field.Basic
import Roadbook.Proofs.Coverage.Debounce
import Roadbook.Proofs.Coverage.Share

/-!
# The percentage that is told

While an area stays loaded, what a call does to its tracker is what some operations do, and if the
call tells of a percentage then the last of them made segments driven and the percentage is the one
after it (`Navigator.leads_answer`). So at any time the tracker that is loaded has been led to from
that of its area, through all that was told since the area was loaded (`Navigator.Follows`), and
percentages that are told of an area are shares of its road that never fall
(`Navigator.tells_share`).
-/

namespace Roadbook

open Effect

namespace Custody

variable {α : Type} [Scalar α] [Geodesy α] {rules : Config.Coverage α} {c c₁ c' : Custody α}
  {ids : List Nat}

/-- The last of some operations makes these segments driven. -/
def Promotes (rules : Config.Coverage α) (c : Custody α) (ids : List Nat) (c' : Custody α) : Prop :=
  ∃ before p, c.Leads rules before ∧ before.perform? rules (.observe p) = some c'
    ∧ ids ≠ [] ∧ c'.driven = before.driven ++ ids

theorem Promotes.leads (h : c.Promotes rules ids c') : c.Leads rules c' := by
  obtain ⟨before, p, hbefore, hc', -⟩ := h
  exact hbefore.trans (.of_perform (.observe p) hc')

theorem Promotes.ne_nil (h : c.Promotes rules ids c') : c'.driven ≠ [] := by
  obtain ⟨before, p, -, -, hids, hdriven⟩ := h
  rw [hdriven]
  exact List.append_ne_nil_of_right_ne_nil _ hids

theorem Leads.promotes (h : c.Leads rules c₁) (hnew : c₁.Promotes rules ids c') :
    c.Promotes rules ids c' := by
  obtain ⟨before, p, hbefore, hrest⟩ := hnew
  exact ⟨before, p, h.trans hbefore, hrest⟩

theorem exists_flushed (rules : Config.Coverage α) {t' : Tracker α} {told : List (Effect α)}
    (h : c.tracker.Flushed t' told) : ∃ c', c.Leads rules c' ∧ c'.tracker = t' := by
  cases h with
  | idle => exact ⟨c, .refl c, rfl⟩
  | begun hb => exact ⟨_, .of_perform .beginFlush rfl, congrArg Prod.snd hb⟩

end Custody

/-- What an answer tells of segments made driven was so on the way from a tracker to another. -/
def Answer.LeadsTo {α : Type} [Scalar α] [Geodesy α] (rules : Config.Coverage α) (a : Answer α)
    (start c : Custody α) : Prop :=
  ∀ name ids percent, .segmentsDriven name ids percent ∈ a.effects →
    ∃ c₀, start.Promotes rules ids c₀ ∧ percent = c₀.tracker.percent ∧ c₀.Leads rules c

/-- Operations have led from the fresh tracker of an area, once it was loaded, to the tracker that
is loaded, through all that was told since. -/
def Navigator.Follows {α : Type} [Scalar α] [Geodesy α] (config : Config α) (n : Navigator α)
    (past : List (Answer α)) : Prop :=
  ∀ t, n.tracker = some t → ∃ area ranks since c, IsLoadedSince past area since ∧ t = c.tracker
    ∧ (Custody.start area ranks).Leads config.coverage c
    ∧ ∀ a ∈ since, a.LeadsTo config.coverage (.start area ranks) c

section Exact

variable {K : Type} [Field K] [LinearOrder K] [FloorRing K] [Geodesy K]

attribute [local instance] Scalar.exact

variable {config : Config K} {c c' : Custody K} {n : Navigator K} {now : Int} {event : Event K}
  {area : Area K} {past : List (Answer K)}

/-- What becomes of a tracker, and a percentage that is told, is what operations make of them. -/
theorem Custody.exists_answered {a : Answer K} {t' : Tracker K} {new : List (Effect K)}
    (h : c.tracker.Answered config a t' new) :
    ∃ c', c.Leads config.coverage c' ∧ c'.tracker = t'
      ∧ ∀ name ids percent, .segmentsDriven name ids percent ∈ new →
        c.Promotes config.coverage ids c' ∧ percent = c'.tracker.percent := by
  cases h with
  | quiet => exact ⟨c, .refl c, rfl, by simp⟩
  | missed => exact ⟨c, .refl c, rfl, by simp⟩
  | @completed success =>
    exact ⟨_, .of_perform (.completeFlush success) rfl, rfl, by simp⟩
  | @observed p hits t' _ hob hne =>
    have hobserve : c.perform? config.coverage (.observe p)
        = some { c with tracker := t', driven := c.driven ++ hits.toList } := by
      rw [perform?, c.tracker.observation?_exact, hob]
      rfl
    refine ⟨_, .of_perform (.observe p) hobserve, rfl, fun name ids percent hmem => ?_⟩
    simp only [List.mem_singleton, Effect.segmentsDriven.injEq] at hmem
    obtain ⟨-, rfl, rfl⟩ := hmem
    exact ⟨⟨c, p, .refl c, hobserve, List.isEmpty_eq_false_iff.1 hne, rfl⟩, rfl⟩

namespace Navigator

/-- A call that leaves the area loaded goes on with its tracker. -/
theorem leads_answer (ht : n.tracker = some c.tracker)
    (hkeeps : ¬ (n.answer config now event).Unloads) :
    ∃ c', (n.answer config now event).navigator.tracker = some c'.tracker
      ∧ c.Leads config.coverage c' ∧ ∀ name ids percent,
        .segmentsDriven name ids percent ∈ (n.answer config now event).effects →
          c.Promotes config.coverage ids c' ∧ percent = c'.tracker.percent := by
  obtain ⟨t₁, ht₁, hflushed⟩ := flushed_due ht config now
  obtain ⟨c₁, hleads, rfl⟩ := Custody.exists_flushed config.coverage hflushed
  rcases answer_cases config n now event with ⟨o, hok, ha⟩ | ⟨refusal, -, ha⟩ <;>
    rw [ha] at hkeeps ⊢
  · obtain ⟨t₂, new, ht₂, hbooked, hanswered⟩ := answered_respond ht₁ hok fun h => hkeeps ⟨h, rfl⟩
    obtain ⟨c', hleads', rfl, htold⟩ := Custody.exists_answered hanswered
    refine ⟨c', ht₂, hleads.trans hleads', fun name ids percent hmem => ?_⟩
    have hdriven : .segmentsDriven name ids percent ∈ booked o.effects :=
      List.mem_filter.2 ⟨hmem, rfl⟩
    rw [hbooked] at hdriven
    have hnew := (List.mem_append.1 hdriven).resolve_left (hflushed.not_driven name ids percent)
    exact (htold name ids percent hnew).imp_left hleads.promotes
  · exact ⟨c₁, ht₁, hleads, by simp [Answer.effects, Except.toOption]⟩

theorem Reachable.not_driven_of_unloads (hn : Reachable config n)
    (h : (n.answer config now event).Unloads) (name : String) (ids : List Nat) (percent : K) :
    .segmentsDriven name ids percent ∉ (n.answer config now event).effects := by
  intro hmem
  obtain ⟨⟨last, hbooked, hlast⟩, -⟩ := hn.answer_of_unloads h
  have hdriven : .segmentsDriven name ids percent ∈ booked (n.answer config now event).effects :=
    List.mem_filter.2 ⟨hmem, rfl⟩
  rw [hbooked] at hdriven
  rcases List.mem_append.1 hdriven with hdue | hunloaded
  · exact effects_due config now n _ (List.mem_filter.1 hdue).1
  · obtain ⟨_, heq⟩ := hlast _ hunloaded
    cases heq

theorem Follows.handle (h : Follows config n past) (hn : Reachable config n) (now : Int)
    (event : Event K) :
    Follows config (n.handle config now event).2 (past ++ [n.answer config now event]) := by
  intro t' ht'
  rcases hn.loaded_cases ht' with
    ⟨area, ranks, session, view, rfl, hunloads, hloaded⟩ | ⟨hkeeps, t, ht⟩
  · have hnav : (n.handle config now (.areaLoaded area ranks)).2
        = loadedWith area ranks session view := hloaded
    rw [hnav] at ht'
    exact ⟨area, ranks, [], .start area ranks, isLoadedSince_load past rfl hunloads.2,
      (Option.some.inj ht').symm, .refl _, by simp⟩
  · obtain ⟨area, ranks, since, c, hsince, rfl, hleads, htold⟩ := h t ht
    obtain ⟨c', hc', hstep, hnew⟩ := leads_answer ht hkeeps
    refine ⟨area, ranks, _, c', hsince.concat hkeeps, Option.some.inj (ht'.symm.trans hc'),
      hleads.trans hstep, List.forall_mem_append.2 ⟨fun a ha => ?_, List.forall_mem_singleton.2 ?_⟩⟩
    · intro name ids percent hmem
      obtain ⟨c₀, hpromotes, hpercent, hlater⟩ := htold a ha name ids percent hmem
      exact ⟨c₀, hpromotes, hpercent, hlater.trans hstep⟩
    · intro name ids percent hmem
      obtain ⟨hpromotes, hpercent⟩ := hnew name ids percent hmem
      exact ⟨c', hleads.promotes hpromotes, hpercent, .refl c'⟩

theorem follows_run (config : Config K) (calls : List (Int × Event K)) :
    Follows config (fresh.run config calls) (fresh.log config calls) := by
  induction calls using List.reverseRecOn with
  | nil =>
    intro t ht
    cases ht
  | append_singleton calls call ih =>
    rw [log_append, run, List.foldl_append]
    exact ih.handle (Reachable.fresh.run calls) call.1 call.2

variable [IsStrictOrderedRing K]

/-- Whatever is done with the tracker of an area with some road, its percentage is the baseline
until a segment is made driven, and from then on that of the road that is driven, which does not
fall. Whenever segments made driven are told of, in any run, the percentage is that of the tracker
that is loaded, a position having just made these segments driven; and none that was told before,
since the area was loaded, is greater. -/
theorem tells_share (config : Config K) :
    (∀ area : Area K, area.IsMeasured → ∀ ranks operations, ∃ c,
      (Custody.start area ranks).run? config.coverage operations = some c
        ∧ c.Reports config.coverage area)
    ∧ ∀ calls past a rest, fresh.log config calls = past ++ a :: rest →
      ∀ name ids percent, .segmentsDriven name ids percent ∈ a.effects →
        ∃ area ranks since c, IsLoadedSince past area since
          ∧ (Custody.start area ranks).Promotes config.coverage ids c
          ∧ a.navigator.tracker = some c.tracker ∧ percent = c.tracker.percent
          ∧ (area.IsMeasured → ∀ b ∈ since, ∀ name' ids' earlier,
              .segmentsDriven name' ids' earlier ∈ b.effects → earlier ≤ percent) := by
  refine ⟨fun area hmeasured ranks operations => ?_,
    fun calls past a rest hlog name ids percent hmem => ?_⟩
  · obtain ⟨c, hc⟩ := Custody.exists_run? config.coverage operations (.start area ranks)
    exact ⟨c, hc, ((Custody.isCounted_start area ranks).run hc).1.reports hmeasured⟩
  · obtain ⟨before, now, event, -, -, rfl, rfl⟩ := log_eq_append hlog
    have hn : Reachable config (fresh.run config before) := Reachable.fresh.run before
    have hkeeps := fun hunloads => hn.not_driven_of_unloads hunloads name ids percent hmem
    rcases ht : (fresh.run config before).tracker with _ | t
    · rw [(hn.answer_of_vacant ht hkeeps).1] at hmem
      cases hmem
    obtain ⟨area, ranks, since, c, hsince, rfl, hleads, htold⟩ := follows_run config before t ht
    obtain ⟨c', hc', hstep, hnew⟩ := leads_answer ht hkeeps
    obtain ⟨hpromotes, rfl⟩ := hnew name ids percent hmem
    refine ⟨area, ranks, since, c', hsince, hleads.promotes hpromotes, hc', rfl, ?_⟩
    intro hmeasured b hb name' ids' earlier hearlier
    obtain ⟨c₀, hpromotes₀, rfl, hlater⟩ := htold b hb name' ids' earlier hearlier
    obtain ⟨operations, hrun⟩ := hpromotes₀.leads
    have hcounted := ((Custody.isCounted_start area ranks).run hrun).1
    exact (hcounted.reports hmeasured).rises hpromotes₀.ne_nil c' (hlater.trans hstep)

end Navigator

end Exact

namespace Trial

/-- An area in which a segment is given once more, elsewhere and three times as long. -/
def relaid : Area ℚ where
  name := "relaid"
  route := [place 0, place 10]
  segments := [⟨1, [place 0, place 1], 100, false, false⟩,
    ⟨2, [place 3, place 4], 100, false, false⟩, ⟨1, [place 6, place 7], 300, false, false⟩]
  baseline := 10

/-- A drive along the segments of the area, from before the start of the road. -/
def outing : List (Int × Event ℚ) :=
  [(0, .areaLoaded relaid), (0, seen (-5) 0), (0, .begin), (0, seen 0 0), (9000, seen 3 9000),
    (18000, seen 6 18000)]

end Trial

/-- What is told of segments made driven. -/
def Effect.driven? {α : Type} : Effect α → Option (String × List Nat × α)
  | .segmentsDriven name ids percent => some (name, ids, percent)
  | _ => none

theorem Effect.driven?_eq_some {α : Type} {e : Effect α} {name : String} {ids : List Nat}
    {percent : α} : e.driven? = some (name, ids, percent)
      ↔ e = .segmentsDriven name ids percent := by
  cases e <;> simp [driven?]

/-- At first a quarter of the road is driven and in the end all of it. -/
theorem Navigator.tells_share_relaid : Trial.relaid.IsMeasured
    ∧ (∃ c : Custody ℚ,
      (Custody.start Trial.relaid).run? Config.standard.coverage Trial.errands = some c
        ∧ c.driven = [2] ∧ c.tracker.percent = 25
        ∧ c.tracker.percent = 100 * Trial.relaid.share c.tracker.driven)
    ∧ ∃ past a, fresh.log .standard Trial.outing = past ++ [a]
      ∧ .segmentsDriven "relaid" [1] 100 ∈ a.effects
      ∧ ∃ area ranks since c, IsLoadedSince past area since
        ∧ (Custody.start area ranks).Promotes Config.standard.coverage [1] c
        ∧ a.navigator.tracker = some c.tracker ∧ 100 = c.tracker.percent := by
  have hmeasured : Trial.relaid.IsMeasured := ⟨by decide +kernel, by decide +kernel⟩
  obtain ⟨hreports, htells⟩ := tells_share (Config.standard : Config ℚ)
  refine ⟨hmeasured, ?_, ?_⟩
  · obtain ⟨c, hc, hc'⟩ := hreports Trial.relaid hmeasured (fun _ => 0) Trial.errands
    have hrun : ((Custody.start Trial.relaid).run? Config.standard.coverage Trial.errands).map
        (fun c => (c.driven, c.tracker.percent)) = some ([2], 25) := by decide +kernel
    rw [hc, Option.map_some, Option.some.injEq, Prod.mk.injEq] at hrun
    exact ⟨c, hc, hrun.1, hrun.2, hc'.share (by simp [hrun.1])⟩
  · have hlog : fresh.log .standard Trial.outing
        = fresh.log .standard (Trial.outing.take 5)
          ++ [(fresh.run .standard (Trial.outing.take 5)).answer .standard 18000
            (Trial.seen 6 18000)] :=
      log_append fresh (Trial.outing.take 5) (Trial.outing.drop 5)
    have htold : ((fresh.run .standard (Trial.outing.take 5)).answer .standard 18000
        (Trial.seen 6 18000)).effects.filterMap Effect.driven? = [("relaid", [1], 100)] := by
      decide +kernel
    obtain ⟨e, hmem, he⟩ := List.mem_filterMap.1 (htold ▸ List.mem_singleton_self _)
    obtain rfl := Effect.driven?_eq_some.1 he
    obtain ⟨area, ranks, since, c, hsince, hpromotes, htracker, hpercent, -⟩ :=
      htells _ _ _ _ hlog _ _ _ hmem
    exact ⟨_, _, hlog, hmem, area, ranks, since, c, hsince, hpromotes, htracker, hpercent⟩

end Roadbook
