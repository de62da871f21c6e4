import Mathlib.Data.List.Induction
import Mathlib.Data.List.Nodup
import Mathlib.Data.List.Sort
import Mathlib.Tactic.Common
import Roadbook.Coverage.Tracker

/-!
# What a tracker keeps account of

A tracker of a fresh area has nothing pending and nothing in flight (`ofArea_pending`,
`ofArea_inFlight`), and has the segments that take part driven or undriven as they are given
(`mem_driven_ofArea`, `mem_undriven_ofArea`), listed in any order there is (`exists_ranks`). A batch
is handed out with all that is pending (`beginFlush_eq_some`). What is pending or in flight is owed
(`Tracker.Owes`): making segments driven adds to that (`owes_observe`), and nothing takes from it
but the outcome of a batch that was stored (`owes_completeFlush_true`). Whatever becomes of batches,
all else stays as it is (`Tracker.CoversAlike`).
-/

namespace Roadbook

/-- A segment takes part in coverage if it can be driven and has a line. -/
def Segment.TakesPart {α : Type} (s : Segment α) : Prop := s.undriveable = false ∧ s.line ≠ []

instance {α : Type} (s : Segment α) : Decidable s.TakesPart := inferInstanceAs (Decidable (_ ∧ _))

/-- A segment takes part under a number, as driven or as undriven. -/
def Segment.IsGiven {α : Type} (s : Segment α) (id : Nat) (driven : Bool) : Prop :=
  s.id = id ∧ s.TakesPart ∧ s.driven = driven

/-- Some segment of the area takes part under a number, as driven or as undriven. -/
def Area.Gives {α : Type} (area : Area α) (id : Nat) (driven : Bool) : Prop :=
  ∃ s ∈ area.segments, s.IsGiven id driven

theorem Area.gives_iff {α : Type} {area : Area α} {id : Nat} :
    area.Gives id true ∨ area.Gives id false ↔ ∃ s ∈ area.segments, s.id = id ∧ s.TakesPart := by
  constructor
  · rintro (⟨s, hs, hid, hpart, -⟩ | ⟨s, hs, hid, hpart, -⟩) <;> exact ⟨s, hs, hid, hpart⟩
  · rintro ⟨s, hs, hid, hpart⟩
    cases hdriven : s.driven
    · exact .inr ⟨s, hs, hid, hpart, hdriven⟩
    · exact .inl ⟨s, hs, hid, hpart, hdriven⟩

theorem Track.ofSegment?_eq_none {α : Type} {s : Segment α} :
    Track.ofSegment? s = none ↔ ¬ s.TakesPart := by
  unfold Track.ofSegment? Segment.TakesPart
  cases s.undriveable <;> cases s.line <;> simp

namespace Tracker

section Account

variable {α : Type}

theorem add_account (t : Tracker α) (s : Segment α) :
    (t.add s).area = t.area ∧ (t.add s).pending = t.pending ∧ (t.add s).inFlight = t.inFlight
      ∧ (t.add s).baseline = t.baseline ∧ (t.add s).promoted = t.promoted := by
  unfold add
  split
  · exact ⟨rfl, rfl, rfl, rfl, rfl⟩
  · dsimp only
    split_ifs <;> exact ⟨rfl, rfl, rfl, rfl, rfl⟩

theorem foldl_add_account : ∀ (segments : List (Segment α)) (t : Tracker α),
    (segments.foldl add t).area = t.area ∧ (segments.foldl add t).pending = t.pending
      ∧ (segments.foldl add t).inFlight = t.inFlight
      ∧ (segments.foldl add t).baseline = t.baseline
      ∧ (segments.foldl add t).promoted = t.promoted
  | [], _ => ⟨rfl, rfl, rfl, rfl, rfl⟩
  | s :: segments, t => by
    obtain ⟨h₁, h₂, h₃, h₄, h₅⟩ := foldl_add_account segments (t.add s)
    obtain ⟨h₁', h₂', h₃', h₄', h₅'⟩ := t.add_account s
    exact ⟨h₁.trans h₁', h₂.trans h₂', h₃.trans h₃', h₄.trans h₄', h₅.trans h₅'⟩

section OfArea

variable (area : Area α) (ranks : Nat → Nat)

@[simp] theorem ofArea_area : (ofArea area ranks).area = area.name :=
  (foldl_add_account area.segments _).1

@[simp] theorem ofArea_pending : (ofArea area ranks).pending = ∅ :=
  (foldl_add_account area.segments _).2.1

@[simp] theorem ofArea_inFlight : (ofArea area ranks).inFlight = none :=
  (foldl_add_account area.segments _).2.2.1

@[simp] theorem ofArea_baseline : (ofArea area ranks).baseline = area.baseline :=
  (foldl_add_account area.segments _).2.2.2.1

@[simp] theorem ofArea_promoted : (ofArea area ranks).promoted = false :=
  (foldl_add_account area.segments _).2.2.2.2

end OfArea

theorem add_cases (t : Tracker α) (s : Segment α) :
    (¬ s.TakesPart ∧ t.add s = t) ∨
    (s.TakesPart ∧ ∃ track, Track.ofSegment? s = some track ∧ ((s.driven = true ∧ t.add s =
        { t with tracks := keep s.id track t.tracks, driven := t.driven.insert s.id }) ∨
      (s.driven = false ∧ t.add s =
        { t with tracks := keep s.id track t.tracks, undriven := t.undriven.insert s.id }))) := by
  unfold add
  cases htrack : Track.ofSegment? s with
  | none => exact .inl ⟨Track.ofSegment?_eq_none.1 htrack, rfl⟩
  | some track =>
    have hpart : s.TakesPart := by
      by_contra hpart
      rw [Track.ofSegment?_eq_none.2 hpart] at htrack
      cases htrack
    refine .inr ⟨hpart, track, rfl, ?_⟩
    cases hdriven : s.driven
    · exact .inr ⟨rfl, rfl⟩
    · exact .inl ⟨rfl, rfl⟩

theorem mem_keys_keep {id k : Nat} {track : Track α} : ∀ {l : List (Nat × Track α)},
    k ∈ (keep id track l).map (·.1) ↔ k ∈ l.map (·.1) ∨ id = k
  | [] => by simp [keep, eq_comm]
  | (n, _) :: rest => by
    unfold keep
    split_ifs with h
    · subst h
      simp only [List.map_cons, List.mem_cons, eq_comm (a := k)]
      tauto
    · simp only [List.map_cons, List.mem_cons, mem_keys_keep (l := rest), or_assoc]

theorem find?_keep {id k : Nat} {track : Track α} : ∀ {l : List (Nat × Track α)},
    ((keep id track l).find? fun (n, _) => n == k).map (·.2)
      = if id = k then some track else (l.find? fun (n, _) => n == k).map (·.2)
  | [] => by by_cases hk : id = k <;> simp [keep, hk]
  | (n, t) :: rest => by
    have ih := @find?_keep id k track rest
    unfold keep
    by_cases hn : n = id
    · subst hn
      by_cases hk : n = k <;> simp [hk]
    · rw [if_neg hn]
      by_cases hk : n = k
      · have hne : id ≠ k := fun hid => hn (hk.trans hid.symm)
        simp [hk, hne]
      · simpa only [List.find?_cons, beq_false_of_ne hk] using ih

theorem nodup_keys_keep {id : Nat} {track : Track α} : ∀ {l : List (Nat × Track α)},
    (l.map (·.1)).Nodup → ((keep id track l).map (·.1)).Nodup
  | [], _ => by simp [keep]
  | (n, t) :: rest, h => by
    obtain ⟨hn, hrest⟩ := List.nodup_cons.1 h
    unfold keep
    split_ifs with hid
    · subst hid
      exact List.nodup_cons.2 ⟨hn, hrest⟩
    · refine List.nodup_cons.2 ⟨fun hmem => ?_, nodup_keys_keep hrest⟩
      rcases mem_keys_keep.1 hmem with hmem | hsame
      · exact hn hmem
      · exact hid hsame.symm

theorem isSome_track? {t : Tracker α} {id : Nat} :
    (t.track? id).isSome = true ↔ id ∈ t.tracks.map (·.1) := by
  simp [track?, List.find?_isSome]

/-- Of the tracks kept for distinct numbers each is found under its own. -/
theorem track?_eq_some {t : Tracker α} (hnodup : (t.tracks.map (·.1)).Nodup) {id : Nat}
    {track : Track α} : t.track? id = some track ↔ (id, track) ∈ t.tracks := by
  have hfound : ∀ {track}, t.track? id = some track → (id, track) ∈ t.tracks := by
    intro track h
    obtain ⟨⟨n, _⟩, hfind, rfl⟩ := Option.map_eq_some_iff.1 h
    obtain rfl : n = id := by simpa using List.find?_some hfind
    exact List.mem_of_find?_eq_some hfind
  refine ⟨hfound, fun hmem => ?_⟩
  obtain ⟨found, hsome⟩ := Option.isSome_iff_exists.1
    (isSome_track?.2 (List.mem_map_of_mem (f := (·.1)) hmem))
  have hsame := List.inj_on_of_nodup_map hnodup (hfound hsome) hmem rfl
  rwa [← (Prod.mk.inj hsame).2]

/-- In what order the tracks are listed makes no difference to which one is found. -/
theorem track?_of_perm {t t' : Tracker α} (hnodup : (t.tracks.map (·.1)).Nodup)
    (hperm : t'.tracks.Perm t.tracks) (id : Nat) : t'.track? id = t.track? id := by
  have hnodup' : (t'.tracks.map (·.1)).Nodup := (hperm.map _).nodup_iff.2 hnodup
  ext track
  rw [track?_eq_some hnodup, track?_eq_some hnodup', hperm.mem_iff]

theorem mem_driven_add (t : Tracker α) (s : Segment α) (id : Nat) :
    id ∈ (t.add s).driven ↔ id ∈ t.driven ∨ s.IsGiven id true := by
  rcases t.add_cases s with
    ⟨hpart, hadd⟩ | ⟨hpart, track, -, ⟨hdriven, hadd⟩ | ⟨hdriven, hadd⟩⟩ <;> rw [hadd]
  · simp [Segment.IsGiven, hpart]
  · simp [Segment.IsGiven, hpart, hdriven, eq_comm, or_comm]
  · simp [Segment.IsGiven, hdriven]

theorem mem_undriven_add (t : Tracker α) (s : Segment α) (id : Nat) :
    id ∈ (t.add s).undriven ↔ id ∈ t.undriven ∨ s.IsGiven id false := by
  rcases t.add_cases s with
    ⟨hpart, hadd⟩ | ⟨hpart, track, -, ⟨hdriven, hadd⟩ | ⟨hdriven, hadd⟩⟩ <;> rw [hadd]
  · simp [Segment.IsGiven, hpart]
  · simp [Segment.IsGiven, hdriven]
  · simp [Segment.IsGiven, hpart, hdriven, eq_comm, or_comm]

/-- A segment that takes part is tracked in place of the one before with its number. -/
theorem track?_add (t : Tracker α) (s : Segment α) (id : Nat) : (t.add s).track? id
    = if s.id = id ∧ s.TakesPart then Track.ofSegment? s else t.track? id := by
  rcases t.add_cases s with
    ⟨hpart, hadd⟩ | ⟨hpart, track, htrack, ⟨-, hadd⟩ | ⟨-, hadd⟩⟩ <;> rw [hadd]
  · rw [if_neg fun h => hpart h.2]
  · simp only [track?, find?_keep, htrack, hpart, and_true]
  · simp only [track?, find?_keep, htrack, hpart, and_true]

theorem isSome_track?_add (t : Tracker α) (s : Segment α) (id : Nat) :
    ((t.add s).track? id).isSome = true ↔
      (t.track? id).isSome = true ∨ s.id = id ∧ s.TakesPart := by
  rw [track?_add]
  split_ifs with h
  · have hsome : (Track.ofSegment? s).isSome = true :=
      Option.isSome_iff_ne_none.2 fun hnone => Track.ofSegment?_eq_none.1 hnone h.2
    exact iff_of_true hsome (.inr h)
  · exact (or_iff_left h).symm

/-- What each segment may add to a tracker is there in the end if some segment added it. -/
theorem foldl_add_iff {P : Tracker α → Prop} {Q : Segment α → Prop}
    (h : ∀ t s, P (t.add s) ↔ P t ∨ Q s) : ∀ (segments : List (Segment α)) (t : Tracker α),
    P (segments.foldl add t) ↔ P t ∨ ∃ s ∈ segments, Q s
  | [], t => by simp
  | s :: segments, t => by
    rw [List.foldl_cons, foldl_add_iff h segments (t.add s), h t s, or_assoc]
    simp only [List.mem_cons, exists_eq_or_imp]

theorem mem_driven_ofArea {area : Area α} {ranks : Nat → Nat} {id : Nat} :
    id ∈ (ofArea area ranks).driven ↔ area.Gives id true := by
  have h := foldl_add_iff (P := fun t : Tracker α => id ∈ t.driven) fun t s => mem_driven_add t s id
  exact (h _ _).trans (or_iff_right IdSet.not_mem_empty)

theorem mem_undriven_ofArea {area : Area α} {ranks : Nat → Nat} {id : Nat} :
    id ∈ (ofArea area ranks).undriven ↔ area.Gives id false := by
  have h := foldl_add_iff (P := fun t : Tracker α => id ∈ t.undriven)
    fun t s => mem_undriven_add t s id
  exact (h _ _).trans (or_iff_right IdSet.not_mem_empty)

theorem nodup_keys_gather (area : Area α) : ((gather area).tracks.map (·.1)).Nodup := by
  unfold gather
  induction area.segments using List.reverseRecOn with
  | nil => exact .nil
  | append_singleton segments s ih =>
    rw [List.foldl_concat]
    rcases add_cases (segments.foldl add _) s with
      ⟨-, hadd⟩ | ⟨-, track, -, ⟨-, hadd⟩ | ⟨-, hadd⟩⟩ <;> rw [hadd]
    · exact ih
    · exact nodup_keys_keep ih
    · exact nodup_keys_keep ih

theorem place_eq (ranks : Nat → Nat) (entry : Nat × Track α) : ∀ entries : List (Nat × Track α),
    place ranks entry entries = entries.orderedInsert (ranks ·.1 ≤ ranks ·.1) entry
  | [] => rfl
  | e :: es => by
    unfold place List.orderedInsert
    rw [place_eq ranks entry es]

theorem arrange_eq (ranks : Nat → Nat) : ∀ tracks : List (Nat × Track α),
    arrange ranks tracks = tracks.insertionSort (ranks ·.1 ≤ ranks ·.1)
  | [] => rfl
  | entry :: tracks => by
    rw [List.insertionSort_cons, ← arrange_eq ranks tracks, ← place_eq]
    rfl

theorem tracks_ofArea_perm (area : Area α) (ranks : Nat → Nat) :
    (ofArea area ranks).tracks.Perm (gather area).tracks := by
  show (arrange ranks _).Perm _
  rw [arrange_eq]
  exact List.perm_insertionSort _ _

/-- The ranks can stand for any order there is. -/
theorem exists_ranks (area : Area α) {listing : List (Nat × Track α)}
    (hperm : listing.Perm (gather area).tracks) :
    ∃ ranks, (ofArea area ranks).tracks = listing := by
  have hnodup : (listing.map (·.1)).Nodup := (hperm.map _).nodup_iff.2 (nodup_keys_gather area)
  let ranks : Nat → Nat := (listing.map (·.1)).idxOf
  have harranged : (ofArea area ranks).tracks.Pairwise (ranks ·.1 ≤ ranks ·.1) := by
    have htotal : Std.Total fun e e' : Nat × Track α => ranks e.1 ≤ ranks e'.1 :=
      ⟨fun e e' => Nat.le_total _ _⟩
    have htrans : IsTrans (Nat × Track α) fun e e' => ranks e.1 ≤ ranks e'.1 :=
      ⟨fun _ _ _ => Nat.le_trans⟩
    show (arrange ranks _).Pairwise _
    rw [arrange_eq]
    exact List.pairwise_insertionSort _ _
  have hlisted : listing.Pairwise (ranks ·.1 ≤ ranks ·.1) := by
    have hkeys : (listing.map (·.1)).Pairwise (ranks · ≤ ranks ·) := by
      refine List.pairwise_iff_getElem.2 fun i j hi hj hij => ?_
      have hi : ranks (listing.map (·.1))[i] = i := hnodup.idxOf_getElem i hi
      have hj : ranks (listing.map (·.1))[j] = j := hnodup.idxOf_getElem j hj
      rw [hi, hj]
      exact hij.le
    exact (List.pairwise_map (R := (ranks · ≤ ranks ·))).1 hkeys
  have hsame : (ofArea area ranks).tracks.Perm listing :=
    (tracks_ofArea_perm area ranks).trans hperm.symm
  refine ⟨ranks, hsame.eq_of_pairwise (fun e e' he he' hle hge => ?_) harranged hlisted⟩
  have hkey : e.1 = e'.1 :=
    (List.idxOf_inj (List.mem_map_of_mem (hsame.subset he))).1 (Nat.le_antisymm hle hge)
  exact List.inj_on_of_nodup_map hnodup (hsame.subset he) he' hkey

theorem nodup_keys_ofArea (area : Area α) (ranks : Nat → Nat) :
    ((ofArea area ranks).tracks.map (·.1)).Nodup :=
  ((tracks_ofArea_perm area ranks).map _).nodup_iff.2 (nodup_keys_gather area)

theorem track?_ofArea (area : Area α) (ranks : Nat → Nat) (id : Nat) :
    (ofArea area ranks).track? id = (gather area).track? id :=
  track?_of_perm (nodup_keys_gather area) (tracks_ofArea_perm area ranks) id

theorem isSome_track?_gather {area : Area α} {id : Nat} :
    ((gather area).track? id).isSome = true ↔ area.Gives id true ∨ area.Gives id false := by
  have h := foldl_add_iff (P := fun t : Tracker α => (t.track? id).isSome = true)
    fun t s => isSome_track?_add t s id
  exact (h _ _).trans ((or_iff_right (by simp [track?])).trans Area.gives_iff.symm)

/-- A segment that is not known to be stored. -/
def Owes (t : Tracker α) (id : Nat) : Prop :=
  id ∈ t.pending ∨ ∃ ids, t.inFlight = some ids ∧ id ∈ ids

theorem mem_unconfirmed {t : Tracker α} {id : Nat} : id ∈ t.unconfirmed ↔ t.Owes id := by
  unfold unconfirmed Owes
  rw [IdSet.mem_union]
  cases t.inFlight <;> simp

/-- A segment is undriven, pending or in flight, or none of these. -/
structure IsTidy (t : Tracker α) : Prop where
  apart : ∀ id ∈ t.pending, ∀ ids, t.inFlight = some ids → id ∉ ids
  undriven : ∀ id ∈ t.undriven, ¬ t.Owes id

theorem not_owes_ofArea (area : Area α) (ranks : Nat → Nat) (id : Nat) :
    ¬ (ofArea area ranks).Owes id := by
  simp [Owes]

theorem isTidy_ofArea (area : Area α) (ranks : Nat → Nat) : (ofArea area ranks).IsTidy :=
  ⟨by simp, fun id _ => not_owes_ofArea area ranks id⟩

/-- Alike in all but what is to be stored. -/
structure CoversAlike (t' t : Tracker α) : Prop where
  area : t'.area = t.area
  tracks : t'.tracks = t.tracks
  driven : t'.driven = t.driven
  undriven : t'.undriven = t.undriven
  baseline : t'.baseline = t.baseline
  promoted : t'.promoted = t.promoted

theorem CoversAlike.refl (t : Tracker α) : t.CoversAlike t := ⟨rfl, rfl, rfl, rfl, rfl, rfl⟩

theorem coversAlike_beginFlush (t : Tracker α) : t.beginFlush.2.CoversAlike t := by
  unfold beginFlush
  split_ifs <;> exact ⟨rfl, rfl, rfl, rfl, rfl, rfl⟩

theorem coversAlike_completeFlush (t : Tracker α) (success : Bool) :
    (t.completeFlush success).2.CoversAlike t := by
  unfold completeFlush
  split
  · exact .refl t
  · split_ifs <;> exact ⟨rfl, rfl, rfl, rfl, rfl, rfl⟩

theorem coversAlike_drain (t : Tracker α) : t.drain.2.CoversAlike t := by
  unfold drain
  dsimp only
  split_ifs <;> exact ⟨rfl, rfl, rfl, rfl, rfl, rfl⟩

theorem beginFlush_eq_some {t tracker : Tracker α} {batch : Batch} :
    t.beginFlush = (some batch, tracker) ↔ t.inFlight = none ∧ t.pending.isEmpty = false
      ∧ batch = t.batch t.pending
      ∧ tracker = { t with pending := ∅, inFlight := some t.pending } := by
  unfold beginFlush
  split_ifs with h
  · simp only [Prod.mk.injEq, reduceCtorEq, false_and, false_iff]
    rintro ⟨hfree, hsome, -⟩
    simp [hfree, hsome] at h
  · simp only [Bool.not_eq_true, Bool.or_eq_false_iff, Option.isSome_eq_false_iff,
      Option.isNone_iff_eq_none] at h
    simp only [Prod.mk.injEq, Option.some.injEq, h, true_and, eq_comm]

theorem CoversAlike.of_beginFlush {t tracker : Tracker α} {batch : Batch}
    (h : t.beginFlush = (some batch, tracker)) : tracker.CoversAlike t := by
  have halike := t.coversAlike_beginFlush
  rwa [h] at halike

theorem beginFlush_of_pending {t : Tracker α} (hfree : t.inFlight = none)
    (hsome : t.pending.isEmpty = false) : t.beginFlush =
      (some (t.batch t.pending), { t with pending := ∅, inFlight := some t.pending }) :=
  beginFlush_eq_some.2 ⟨hfree, hsome, rfl, rfl⟩

theorem owes_beginFlush {t tracker : Tracker α} {batch : Batch}
    (h : t.beginFlush = (some batch, tracker)) (id : Nat) : tracker.Owes id ↔ t.Owes id := by
  obtain ⟨hfree, -, -, rfl⟩ := beginFlush_eq_some.1 h
  simp [Owes, hfree]

theorem IsTidy.beginFlush {t tracker : Tracker α} {batch : Batch} (ht : t.IsTidy)
    (h : t.beginFlush = (some batch, tracker)) : tracker.IsTidy := by
  have howes := owes_beginFlush h
  obtain ⟨-, -, -, rfl⟩ := beginFlush_eq_some.1 h
  exact ⟨by simp, fun id hid => (howes id).not.2 (ht.undriven id hid)⟩

theorem owes_completeFlush_false (t : Tracker α) (id : Nat) :
    (t.completeFlush false).2.Owes id ↔ t.Owes id := by
  unfold completeFlush Owes
  cases hflight : t.inFlight <;> simp [hflight]

theorem owes_completeFlush_true (t : Tracker α) (id : Nat) :
    (t.completeFlush true).2.Owes id ↔ id ∈ t.pending := by
  unfold completeFlush Owes
  cases hflight : t.inFlight <;> simp [hflight]

theorem completeFlush_inFlight (t : Tracker α) (success : Bool) :
    (t.completeFlush success).2.inFlight = none := by
  unfold completeFlush
  split
  · assumption
  · split_ifs <;> rfl

theorem IsTidy.completeFlush {t : Tracker α} (ht : t.IsTidy) (success : Bool) :
    (t.completeFlush success).2.IsTidy := by
  have hfree := t.completeFlush_inFlight success
  refine ⟨by simp [hfree], fun id hid => ?_⟩
  rw [(coversAlike_completeFlush t success).undriven] at hid
  cases success
  · exact (owes_completeFlush_false t id).not.2 (ht.undriven id hid)
  · exact (owes_completeFlush_true t id).not.2 fun hp => ht.undriven id hid (.inl hp)

theorem completeFlush_pending {t : Tracker α} {success : Bool} {n : Nat} (h : n ∈ t.pending) :
    n ∈ (t.completeFlush success).2.pending := by
  unfold completeFlush
  split
  · exact h
  · split_ifs
    · exact h
    · exact IdSet.mem_union.2 (.inl h)

end Account

section Observe

variable {α : Type} [Scalar α] [Geodesy α]

theorem observe_of_isEmpty {t : Tracker α} {rules : Config.Coverage α} {p : Point α}
    (h : (t.observe rules p).1.isEmpty = true) : (t.observe rules p).2 = t := by
  have hno : ∀ n, n ∉ t.touched rules p := IdSet.isEmpty_iff.1 h
  have hdriven : t.driven.union (t.touched rules p) = t.driven := by
    ext n
    simp [hno n]
  have hundriven : t.undriven.diff (t.touched rules p) = t.undriven := by
    ext n
    simp [hno n]
  have hpending : t.pending.union (t.touched rules p) = t.pending := by
    ext n
    simp [hno n]
  have hempty : (t.touched rules p).isEmpty = true := h
  simp only [observe, hdriven, hundriven, hpending, hempty, Bool.not_true, Bool.or_false]

theorem observation?_eq_some {t tracker : Tracker α} {rules : Config.Coverage α}
    {p : Point α} {hits : IdSet} (h : t.observation? rules p = some (hits, tracker)) :
    t.observe rules p = (hits, tracker) := by
  unfold observation? at h
  split_ifs at h
  exact Option.some.inj h

theorem observe_pending {t tracker : Tracker α} {rules : Config.Coverage α} {p : Point α}
    {hits : IdSet} (h : t.observe rules p = (hits, tracker)) :
    tracker.pending = t.pending.union hits := by
  cases h
  rfl

theorem owes_observe {t tracker : Tracker α} {rules : Config.Coverage α} {p : Point α}
    {hits : IdSet} (h : t.observe rules p = (hits, tracker)) (id : Nat) :
    tracker.Owes id ↔ t.Owes id ∨ id ∈ hits := by
  cases h
  simp only [Owes, IdSet.mem_union]
  exact or_right_comm

/-- What is made driven is neither pending nor in flight before. -/
theorem IsTidy.observe {t tracker : Tracker α} {rules : Config.Coverage α} {p : Point α}
    {hits : IdSet} (ht : t.IsTidy) (h : t.observe rules p = (hits, tracker)) : tracker.IsTidy := by
  have howes := owes_observe h
  cases h
  have hnew : ∀ id ∈ t.touched rules p, ¬ t.Owes id := fun id hid =>
    ht.undriven id (IdSet.mem_filter.1 hid).1
  refine ⟨fun id hid ids hflight => ?_, fun id hid => ?_⟩
  · rcases IdSet.mem_union.1 hid with hid | hid
    · exact ht.apart id hid ids hflight
    · exact fun hmem => hnew id hid (.inr ⟨ids, hflight, hmem⟩)
  · obtain ⟨hid, hno⟩ := IdSet.mem_diff.1 hid
    rw [howes]
    exact not_or.2 ⟨ht.undriven id hid, hno⟩

end Observe

end Tracker

end Roadbook
