import Roadbook.Proofs.Guidance.Acts

/-!
# An account of the segments made driven

An `Archive` takes down the effects that segments come up in: which were made driven, which batches
were handed out, and which segments have been stored, as those of a last batch are at once. It
accounts for the segments of a navigator when each one made driven is stored or still owed, and only
such a one is owed (`Archive.Accounts`). Everything that a navigator does of its own accord keeps
it so (`Outcome.Acts.isKept`). The outcome of a batch does if it was not stored, or if everything in
flight has been (`Outcome.IsKept.onFlushed`).
-/

namespace Roadbook

def Batch.segments (batch : Batch) : List (String × Nat) := batch.ids.map (batch.area, ·)

/-- Effects that neither make segments driven nor hand out a batch. -/
def Effect.IsAside {α : Type} : Effect α → Prop
  | .segmentsDriven _ _ _ | .persist _ _ => False
  | _ => True

theorem Effect.IsOwn.isAside {α : Type} {e : Effect α} (h : e.IsOwn) : e.IsAside := by
  cases e <;> trivial

structure Archive where
  /-- The batches handed out with the outcome waited for. -/
  batches : List Batch
  /-- The segments stored, each with its area. -/
  stored : List (String × Nat)
  /-- The segments made driven, each with its area. -/
  driven : List (String × Nat)

namespace Archive

variable {α : Type} {a : Archive}

def empty : Archive := ⟨[], [], []⟩

def add (a : Archive) : Effect α → Archive
  | .segmentsDriven area ids _ => { a with driven := a.driven ++ ids.map (area, ·) }
  | .persist batch false => { a with batches := a.batches ++ [batch] }
  | .persist batch true => { a with stored := a.stored ++ batch.segments }
  | _ => a

def addAll (a : Archive) (effects : List (Effect α)) : Archive := effects.foldl add a

@[simp] theorem addAll_append (a : Archive) (effects new : List (Effect α)) :
    a.addAll (effects ++ new) = (a.addAll effects).addAll new := by
  simp [addAll]

theorem add_of_isAside {e : Effect α} (h : e.IsAside) : a.add e = a := by
  cases e <;> first | rfl | exact h.elim

theorem addAll_of_isAside : ∀ {effects : List (Effect α)}, (∀ e ∈ effects, e.IsAside) →
    a.addAll effects = a
  | [], _ => rfl
  | e :: effects, h => by
    show (a.add e).addAll effects = a
    rw [add_of_isAside (h e List.mem_cons_self)]
    exact addAll_of_isAside fun e he => h e (List.mem_cons_of_mem _ he)

theorem stored_addAll_of_isDue : ∀ {effects : List (Effect α)} {a : Archive},
    (∀ e ∈ effects, e.IsDue) → (a.addAll effects).stored = a.stored
  | [], _, _ => rfl
  | e :: effects, a, h => by
    show ((a.add e).addAll effects).stored = a.stored
    rw [stored_addAll_of_isDue fun e he => h e (List.mem_cons_of_mem _ he)]
    cases e with
    | persist batch last =>
      cases last
      · rfl
      · exact (h _ List.mem_cons_self).elim
    | _ => rfl

end Archive

namespace Navigator

variable {α : Type} {n : Navigator α} {t : Tracker α} {area : String} {id : Nat}

/-- A segment of the area that is loaded, pending or in flight. -/
def Owes (n : Navigator α) (area : String) (id : Nat) : Prop :=
  ∃ t, n.tracker = some t ∧ t.area = area ∧ t.Owes id

def HasInFlight (n : Navigator α) (area : String) (id : Nat) : Prop :=
  ∃ t ids, n.tracker = some t ∧ t.area = area ∧ t.inFlight = some ids ∧ id ∈ ids

theorem owes_some (ht : n.tracker = some t) : n.Owes area id ↔ t.area = area ∧ t.Owes id := by
  simp [Owes, ht]

theorem not_owes_none (ht : n.tracker = none) : ¬ n.Owes area id := by
  simp [Owes, ht]

end Navigator

namespace Archive

variable {α : Type} {a a' : Archive} {n n' : Navigator α} {t t' : Tracker α}

/-- What was made driven is stored, or pending or in flight. -/
def Keeps (a : Archive) (n : Navigator α) : Prop :=
  ∀ area id, (area, id) ∈ a.driven → (area, id) ∈ a.stored ∨ n.Owes area id

/-- Besides, what is pending or in flight was made driven, and is not both. -/
structure Accounts (a : Archive) (n : Navigator α) : Prop where
  keeps : a.Keeps n
  driven : ∀ area id, n.Owes area id → (area, id) ∈ a.driven
  tidy : ∀ t, n.tracker = some t → t.IsTidy

theorem accounts_fresh [Scalar α] : empty.Accounts (.fresh : Navigator α) :=
  ⟨by rintro _ _ ⟨⟩, by rintro _ _ ⟨_, ⟨⟩, -⟩, by rintro _ ⟨⟩⟩

theorem Accounts.of_tracker (h : a.Accounts n) (htracker : n'.tracker = n.tracker) :
    a.Accounts n' := by
  have howes : ∀ area id, n'.Owes area id ↔ n.Owes area id := by
    simp only [Navigator.Owes, htracker, implies_true]
  exact ⟨fun area id hid => (h.keeps area id hid).imp_right (howes area id).2,
    fun area id hid => h.driven area id ((howes area id).1 hid),
    fun t ht => h.tidy t (htracker.symm.trans ht)⟩

theorem Accounts.of_driven (h : a.Accounts n) (ht : n.tracker = some t) (ht' : n'.tracker = some t')
    (harea : t'.area = t.area) (htidy : t'.IsTidy) {ids : List Nat}
    (howes : ∀ id, t'.Owes id ↔ t.Owes id ∨ id ∈ ids) :
    Accounts { a with driven := a.driven ++ ids.map (t'.area, ·) } n' := by
  have hown : ∀ area id, n'.Owes area id ↔ n.Owes area id ∨ t'.area = area ∧ id ∈ ids := by
    intro area id
    rw [Navigator.owes_some ht, Navigator.owes_some ht', howes, harea, and_or_left]
  have hmem : ∀ area id, (area, id) ∈ a.driven ++ ids.map (t'.area, ·)
      ↔ (area, id) ∈ a.driven ∨ t'.area = area ∧ id ∈ ids := by
    intro area id
    simp only [List.mem_append, List.mem_map, Prod.mk.injEq, exists_eq_right_right]
    rw [and_comm (a := id ∈ ids)]
  refine ⟨fun area id hid => ?_, fun area id hid => ?_, fun u hu => ?_⟩
  · rw [hown]
    rcases (hmem area id).1 hid with hid | hnew
    · exact (h.keeps area id hid).imp_right .inl
    · exact .inr (.inr hnew)
  · rcases (hown area id).1 hid with hid | hnew
    · exact (hmem area id).2 (.inl (h.driven area id hid))
    · exact (hmem area id).2 (.inr hnew)
  · obtain rfl := Option.some.inj (ht'.symm.trans hu)
    exact htidy

theorem Accounts.of_stored (h : a.Accounts n) (hdriven : a'.driven = a.driven)
    (hstored : ∀ s ∈ a.stored, s ∈ a'.stored)
    (hlost : ∀ area id, n.Owes area id → (area, id) ∈ a'.stored ∨ n'.Owes area id)
    (howes : ∀ area id, n'.Owes area id → n.Owes area id)
    (htidy : ∀ t, n'.tracker = some t → t.IsTidy) : a'.Accounts n' := by
  refine ⟨fun area id hid => ?_, fun area id hid => ?_, htidy⟩
  · rw [hdriven] at hid
    rcases h.keeps area id hid with hid | hid
    · exact .inl (hstored _ hid)
    · exact hlost area id hid
  · rw [hdriven]
    exact h.driven area id (howes area id hid)

theorem Accounts.of_owes (h : a.Accounts n) (hdriven : a'.driven = a.driven)
    (hstored : a'.stored = a.stored) (ht : n.tracker = some t) (ht' : n'.tracker = some t')
    (harea : t'.area = t.area) (htidy : t'.IsTidy) (howes : ∀ id, t'.Owes id ↔ t.Owes id) :
    a'.Accounts n' := by
  have hown : ∀ area id, n'.Owes area id ↔ n.Owes area id := by
    intro area id
    rw [Navigator.owes_some ht, Navigator.owes_some ht', howes, harea]
  refine h.of_stored hdriven (by simp [hstored]) (fun area id hid => .inr ((hown area id).2 hid))
    (fun area id => (hown area id).1) fun u hu => ?_
  obtain rfl := Option.some.inj (ht'.symm.trans hu)
  exact htidy

end Archive

namespace Outcome

variable {α : Type} {a : Archive} {o o' : Outcome α}

theorem addAll_emit (a : Archive) (o : Outcome α) (e : Effect α) :
    a.addAll (o.emit e).effects = (a.addAll o.effects).add e := by
  simp [emit, Archive.addAll]

/-- The archive accounts for the segments once the effects are taken down. -/
def IsKept (a : Archive) (o : Outcome α) : Prop := (a.addAll o.effects).Accounts o.navigator

theorem IsKept.emit (h : o.IsKept a) {e : Effect α} (he : e.IsAside) : (o.emit e).IsKept a := by
  rw [IsKept, addAll_emit, Archive.add_of_isAside he]
  exact h

theorem IsKept.withDispatch (h : o.IsKept a) {d : Dispatch α} {new : List (Effect α)}
    (heffects : d.effects = o.effects ++ new) (hnew : ∀ e ∈ new, e.IsAside) :
    (o.withDispatch d).IsKept a := by
  show (a.addAll d.effects).Accounts _
  rw [heffects, Archive.addAll_append, Archive.addAll_of_isAside hnew]
  exact h.of_tracker rfl

theorem IsKept.flush (h : o.IsKept a) {t tracker : Tracker α} (ht : o.navigator.tracker = some t)
    {batch : Batch} (hbatch : t.beginFlush = (some batch, tracker)) :
    ((o.withTracker (some tracker)).emit (.persist batch false)).IsKept a := by
  have harea : tracker.area = t.area := by
    obtain ⟨-, -, -, rfl⟩ := Tracker.beginFlush_eq_some.1 hbatch
    rfl
  rw [IsKept, addAll_emit]
  exact h.of_owes rfl rfl ht rfl harea ((h.tidy t ht).beginFlush hbatch)
    (Tracker.owes_beginFlush hbatch)

theorem IsKept.promote [Scalar α] [Geodesy α] (h : o.IsKept a) {t tracker : Tracker α}
    (ht : o.navigator.tracker = some t) {rules : Config.Coverage α} {p : Point α} {hits : IdSet}
    (hob : t.observe rules p = (hits, tracker)) : ((o.withTracker (some tracker)).emit
      (.segmentsDriven tracker.area hits.toList tracker.percent)).IsKept a := by
  have harea : tracker.area = t.area := by
    cases hob
    rfl
  rw [IsKept, addAll_emit]
  exact h.of_driven ht rfl harea ((h.tidy t ht).observe hob) (Tracker.owes_observe hob)

theorem IsKept.drain (h : o.IsKept a) : o.drain.IsKept a := by
  have hnone : ∀ area id, ¬ (o.withTracker none).navigator.Owes area id :=
    fun _ _ => Navigator.not_owes_none rfl
  rcases o.drain_cases with ⟨heq, hempty⟩ | ⟨t, ht, heq⟩ <;> rw [heq]
  · refine h.of_stored rfl (fun _ => id) ?_ (fun area id hid => absurd hid (hnone area id))
      (by rintro _ ⟨⟩)
    rintro area id ⟨t, ht, -, hid⟩
    exact absurd hid (hempty t ht id)
  · rw [IsKept, addAll_emit]
    refine h.of_stored rfl (fun _ => List.mem_append_left _) (fun area id hid => .inl ?_)
      (fun area id hid => absurd hid (hnone area id)) (by rintro _ ⟨⟩)
    obtain ⟨rfl, hmem⟩ := (Navigator.owes_some ht).1 hid
    exact List.mem_append_right _ (List.mem_map_of_mem (Tracker.mem_unconfirmed.2 hmem))

theorem IsKept.load [Scalar α] [Geodesy α] (h : o.IsKept a) (ht : o.navigator.tracker = none)
    (area : Area α) (ranks : Nat → Nat) (session : Session α) :
    (o.load area ranks session).IsKept a := by
  have hkept :
      ((o.withSession (some session)).withTracker (some (.ofArea area ranks))).IsKept a := by
    refine h.of_stored rfl (fun _ => id)
      (fun name id hid => absurd hid (Navigator.not_owes_none ht)) (fun name id hid => ?_) ?_
    · obtain ⟨-, hid⟩ := (Navigator.owes_some rfl).1 hid
      exact absurd hid (Tracker.not_owes_ofArea area ranks id)
    · rintro _ ⟨⟩
      exact Tracker.isTidy_ofArea area ranks
  unfold Outcome.load
  refine (((hkept.emit ?_).emit ?_).emit ?_).emit ?_ <;> trivial

/-- Nothing that a navigator does of its own accord loses a segment. -/
theorem Act.isKept [Scalar α] [Geodesy α] {config : Config α} {now : Int}
    (hact : Act config now o o') (h : o.IsKept a) : o'.IsKept a := by
  cases hact with
  | guide hs hd =>
    obtain ⟨new, heffects, hnew⟩ := hd.effects
    exact h.withDispatch heffects fun e he => (hnew e he).isAside
  | aside => exact h.of_tracker rfl
  | aim => exact h.emit trivial
  | flush ht hbatch => exact h.flush ht hbatch
  | promote ht hob => exact h.promote ht hob
  | drop =>
    have hkept : (o.withSession none).IsKept a := h.of_tracker rfl
    exact hkept.drain
  | load hs ht => exact h.load ht _ _ _

theorem Acts.isKept [Scalar α] [Geodesy α] {config : Config α} {now : Int}
    (hacts : Acts config now o o') (h : o.IsKept a) : o'.IsKept a := by
  induction hacts with
  | refl => exact h
  | tail _ hact ih => exact hact.isKept ih

/-- Nor does any answer to an event, but for the outcome of a batch. -/
theorem IsKept.respond [Scalar α] [Geodesy α] {config : Config α} {now : Int} {event : Event α}
    (h : o.IsKept a) (hp : o.navigator.IsPaired)
    (hok : Navigator.respond config now o event = .ok o')
    (hflushed : ∀ area success, event ≠ .flushed area success) : o'.IsKept a := by
  cases event with
  | directions id found =>
    cases hok
    rcases hs : o.navigator.session with _ | s
    · rwa [inSession_none hs]
    · rw [inSession_some hs]
      rcases (o.dispatch s).resolve_cases id found with heq | ⟨r, -, -, -, heq⟩ <;> rw [heq]
      · rwa [withDispatch_dispatch hs]
      · exact h.withDispatch rfl (List.forall_mem_singleton.2 trivial)
  | flushed area success => exact absurd rfl (hflushed area success)
  | _ => exact (acts_respond hp hok (by simp) (by simp)).isKept h

/-- A segment is lost by the outcome of a batch just if it was in flight, the batch was stored and
the segment was not. -/
theorem IsKept.onFlushed [Scalar α] {config : Config α} {now : Int} (h : o.IsKept a) (area : String)
    {success : Bool} (hstored : success = true → ∀ id, o.navigator.HasInFlight area id →
      (area, id) ∈ (a.addAll o.effects).stored) :
    (o.onFlushed config now area success).IsKept a := by
  rcases o.onFlushed_cases config now area success with
    ⟨t, timers, ht, rfl, heq⟩ | ⟨-, heq⟩ <;> rw [heq]
  · have htidy := (h.tidy t ht).completeFlush success
    have harea := (t.coversAlike_completeFlush success).area
    cases success
    · exact h.of_owes rfl rfl ht rfl harea htidy t.owes_completeFlush_false
    · have hown : ∀ area id, ((o.withTracker (some (t.completeFlush true).2)).withTimers
          timers).navigator.Owes area id ↔ t.area = area ∧ id ∈ t.pending := by
        intro area id
        rw [Navigator.owes_some rfl, harea, Tracker.owes_completeFlush_true]
      refine h.of_stored rfl (fun _ => id) (fun area id hid => ?_) (fun area id hid => ?_) ?_
      · obtain ⟨rfl, hpending | ⟨ids, hflight, hmem⟩⟩ := (Navigator.owes_some ht).1 hid
        · exact .inr ((hown _ id).2 ⟨rfl, hpending⟩)
        · exact .inl (hstored rfl id ⟨t, ids, ht, rfl, hflight, hmem⟩)
      · obtain ⟨harea, hpending⟩ := (hown area id).1 hid
        exact (Navigator.owes_some ht).2 ⟨harea, .inl hpending⟩
      · rintro _ ⟨⟩
        exact htidy
  · exact h

/-- When a batch is reported as stored, what is in flight but not stored is lost. -/
theorem not_keeps_onFlushed [Scalar α] (config : Config α) (now : Int) (h : o.IsKept a)
    {area : String} {id : Nat} (hflight : o.navigator.HasInFlight area id)
    (hstored : (area, id) ∉ (a.addAll o.effects).stored) :
    ¬ (a.addAll (o.onFlushed config now area true).effects).Keeps
      (o.onFlushed config now area true).navigator := by
  rw [onFlushed_effects]
  obtain ⟨t, ids, ht, harea, hids, hmem⟩ := hflight
  have hdriven := h.driven area id ⟨t, ht, harea, .inr ⟨ids, hids, hmem⟩⟩
  intro hkeeps
  rcases hkeeps area id hdriven with hid | hid
  · exact hstored hid
  · rcases o.onFlushed_cases config now area true with
      ⟨t', timers, ht', -, heq⟩ | ⟨hother, -⟩
    · rw [heq] at hid
      obtain ⟨-, hid⟩ := (Navigator.owes_some rfl).1 hid
      obtain rfl := Option.some.inj (ht.symm.trans ht')
      exact (h.tidy t ht).apart id ((t.owes_completeFlush_true id).1 hid) ids hids hmem
    · exact hother t ht harea

end Outcome

end Roadbook
