import Roadbook.Proofs.Storage.Records

/-!
# A store as a ledger

A store is opened on a file in which nothing is stored yet. From then on batches are stored, areas
are remembered, and the file is closed and opened again (`KeyStore.Deed`). As long as the file takes
what is written, each of these succeeds, and what is read for an area is the union of the batches
that were stored for it, in whatever order (`KeyStore.keeps_ledger`).
-/

namespace Roadbook

namespace KeyStore

/-- What is done with a store that is kept in a file. -/
inductive Deed where
  | persist (batch : Batch)
  | rememberArea (area : String)
  /-- The store is closed, and opened again from its file. -/
  | reopen
  deriving DecidableEq, Repr

namespace Deed

def writes : Deed → Bool
  | .persist _ | .rememberArea _ => true
  | .reopen => false

def ids (area : String) : Deed → List Nat
  | .persist batch => if batch.area = area then batch.ids else []
  | .rememberArea _ | .reopen => []

def area? : Deed → Option String
  | .rememberArea area => some area
  | .persist _ | .reopen => none

end Deed

def perform (store : KeyStore DiskFile) : Deed → Bool × KeyStore DiskFile
  | .persist batch => store.persist batch
  | .rememberArea area => store.rememberArea area
  | .reopen =>
    match openFile store.medium.disk store.medium.path with
    | .ok opened => (true, opened)
    | .error _ => (false, store)

def after (store : KeyStore DiskFile) (deeds : List Deed) : KeyStore DiskFile :=
  deeds.foldl (fun store deed => (store.perform deed).2) store

def answers (store : KeyStore DiskFile) : List Deed → List Bool
  | [] => []
  | deed :: deeds => (store.perform deed).1 :: (store.perform deed).2.answers deeds

/-- A text can be written to the file whenever one of the deeds writes to it. -/
def Takes (store : KeyStore DiskFile) : List Deed → Prop
  | [] => True
  | deed :: deeds =>
    (deed.writes = true → ∃ text, (Medium.write store.medium text).isSome)
      ∧ (store.perform deed).2.Takes deeds

/-- The segments that deeds have stored for an area. -/
def recorded (deeds : List Deed) (area : String) : IdSet := .ofList (deeds.flatMap (·.ids area))

section Recorded

variable {deeds others : List Deed} {area : String} {id : Nat}

theorem mem_recorded : id ∈ recorded deeds area
    ↔ ∃ batch, .persist batch ∈ deeds ∧ batch.area = area ∧ id ∈ batch.ids := by
  rw [recorded, IdSet.mem_ofList, List.mem_flatMap]
  constructor
  · rintro ⟨batch | _ | _, hdeed, hid⟩
    · rw [Deed.ids] at hid
      split_ifs at hid with harea
      · exact ⟨batch, hdeed, harea, hid⟩
      · cases hid
    · cases hid
    · cases hid
  · rintro ⟨batch, hdeed, harea, hid⟩
    exact ⟨.persist batch, hdeed, by rwa [Deed.ids, if_pos harea]⟩

/-- It does not matter in which order batches are stored, or how often. -/
theorem recorded_congr (h : ∀ batch, .persist batch ∈ others ↔ .persist batch ∈ deeds)
    (area : String) : recorded others area = recorded deeds area := by
  ext id
  simp only [mem_recorded, h]

theorem recorded_concat (deeds : List Deed) (deed : Deed) (area : String) :
    recorded (deeds ++ [deed]) area = (recorded deeds area).union (.ofList (deed.ids area)) := by
  ext id
  simp only [recorded, IdSet.mem_union, IdSet.mem_ofList, List.flatMap_append, List.mem_append,
    List.flatMap_cons, List.flatMap_nil, List.append_nil]

theorem recorded_concat_of_nil {deed : Deed} (h : deed.ids area = []) :
    recorded (deeds ++ [deed]) area = recorded deeds area := by
  rw [recorded_concat, h]
  rfl

theorem recorded_union_of_mem {batch : Batch} (h : .persist batch ∈ deeds) :
    (recorded deeds batch.area).union (.ofList batch.ids) = recorded deeds batch.area := by
  ext id
  rw [IdSet.mem_union, IdSet.mem_ofList]
  exact or_iff_left_of_imp fun hid => mem_recorded.2 ⟨batch, h, rfl, hid⟩

end Recorded

variable {disk made : Disk} {path : String} {store : KeyStore DiskFile} {deeds : List Deed}

/-- A file that takes one text takes all that is written from then on. -/
theorem IsFiled.takes : ∀ {deeds : List Deed} {store : KeyStore DiskFile}, store.IsFiled path →
    store.Takes deeds
  | [], _, _ => trivial
  | deed :: deeds, store, h => by
    obtain ⟨-, hpath, -⟩ := openFile_eq_ok h.opened
    refine ⟨fun _ => ⟨"", ?_⟩, takes ?_⟩
    · obtain ⟨later, hwrite⟩ := h.writable ""
      rw [write_eq, hpath, hwrite]
      rfl
    · cases deed with
      | persist batch => exact h.persisted batch
      | rememberArea area => exact (h.set _ _).2
      | reopen =>
        rw [perform, hpath, h.opened]
        exact h

/-- A store is what some deeds have made of an empty one. -/
structure Records (path : String) (deeds : List Deed) (store : KeyStore DiskFile) : Prop where
  opened : openFile store.medium.disk path = .ok store
  driven : ∀ area, store.driven area = .ok (recorded deeds area)
  /-- What is stored for an area is what storing its segments would make of it. -/
  text : ∀ batch, .persist batch ∈ deeds →
    store.get? (areaKey batch.area) = some (idsText (recorded deeds batch.area).toList)
  lastArea : store.lastArea? = (deeds.filterMap Deed.area?).getLast?
  settled : ∀ deed ∈ deeds, deed.writes = true → store.IsSettled

theorem openFile_blank (hmade : disk.makeParents path = .ok made)
    (hblank : made.has path = false
      ∨ ∃ text, made.read path = .ok text ∧ (trimmed text.toList).isEmpty = true) :
    openFile disk path = .ok ⟨[], made, path⟩ := by
  unfold openFile
  rw [hmade]
  dsimp only
  by_cases hhas : made.has path = true
  · rcases hblank with habsent | ⟨text, hread, hempty⟩
    · cases hhas.symm.trans habsent
    · rw [if_neg (by simp [hhas]), hread]
      dsimp only
      rw [if_pos hempty]
  · rw [if_pos (by simpa using hhas)]

namespace Records

theorem blank (h : openFile disk path = .ok ⟨[], made, path⟩) :
    Records path [] ⟨[], made, path⟩ where
  opened := openFile_again h
  driven _ := rfl
  text _ hbatch := by cases hbatch
  lastArea := rfl
  settled _ hdeed := by cases hdeed

theorem persist (h : Records path deeds store) (hfiled : store.IsFiled path) {batch : Batch}
    (hids : ∀ id ∈ batch.ids, id < twoTo 64) : (store.persist batch).1 = true
      ∧ Records path (deeds ++ [.persist batch]) (store.persist batch).2 := by
  have hunion : recorded (deeds ++ [.persist batch]) batch.area
      = (recorded deeds batch.area).union (.ofList batch.ids) := by
    rw [recorded_concat, Deed.ids, if_pos rfl]
  have hother : ∀ area, area ≠ batch.area →
      recorded (deeds ++ [.persist batch]) area = recorded deeds area :=
    fun area harea => recorded_concat_of_nil (if_neg (Ne.symm harea))
  obtain ⟨hok, hfiled', hdriven, hsame⟩ := hfiled.persist (h.driven batch.area) hids
  -- no two areas have the same key, so a batch touches what is stored for its own area alone
  have hkeep : ∀ area, area ≠ batch.area →
      (store.persist batch).2.get? (areaKey area) = store.get? (areaKey area) :=
    fun area harea => hsame _ (areaKey_injective.ne harea)
  refine ⟨hok, hfiled'.opened, fun area => ?_, fun other hbatch => ?_, ?_, fun _ _ _ => ?_⟩
  · by_cases harea : area = batch.area
    · rw [harea, hunion]
      exact hdriven
    · rw [driven_congr (hkeep area harea), hother area harea]
      exact h.driven area
  · by_cases harea : other.area = batch.area
    · rw [harea, hunion, persist_eq (h.driven batch.area), setIds, get?_set, if_pos rfl]
    · have hdeed : .persist other ∈ deeds := by
        rcases List.mem_append.1 hbatch with hdeed | hdeed
        · exact hdeed
        · obtain rfl := Deed.persist.inj (List.mem_singleton.1 hdeed)
          exact absurd rfl harea
      rw [hkeep other.area harea, hother other.area harea]
      exact h.text other hdeed
  · rw [lastArea?_persist, h.lastArea, List.filterMap_append]
    exact congrArg List.getLast? (List.append_nil _).symm
  · rw [persist_eq (h.driven batch.area)]
    exact hfiled.settled_set _ _

theorem rememberArea (h : Records path deeds store) (hfiled : store.IsFiled path) (name : String) :
    (store.rememberArea name).1 = true
      ∧ Records path (deeds ++ [.rememberArea name]) (store.rememberArea name).2 := by
  have hrecorded : ∀ area, recorded (deeds ++ [.rememberArea name]) area = recorded deeds area :=
    fun area => recorded_concat_of_nil rfl
  refine ⟨(hfiled.set _ _).1, (hfiled.set _ _).2.opened, fun area => ?_, fun batch hbatch => ?_,
    ?_, fun _ _ _ => hfiled.settled_set _ _⟩
  · rw [hrecorded, (hfiled.rememberArea name area).2.1]
    exact h.driven area
  · rw [hrecorded, (hfiled.rememberArea name batch.area).2.2 _ (areaKey_ne_lastAreaKey _)]
    exact h.text batch (by simpa using hbatch)
  · rw [lastArea?_rememberArea, List.filterMap_append]
    exact List.getLast?_concat.symm

theorem reopen (h : Records path deeds store) : store.perform .reopen = (true, store)
    ∧ Records path (deeds ++ [.reopen]) store := by
  have hrecorded : ∀ area, recorded (deeds ++ [.reopen]) area = recorded deeds area :=
    fun area => recorded_concat_of_nil rfl
  obtain ⟨-, hpath, -⟩ := openFile_eq_ok h.opened
  refine ⟨by rw [KeyStore.perform, hpath, h.opened], h.opened, fun area => ?_,
    fun batch hbatch => ?_, ?_, fun deed hdeed hwrites => ?_⟩
  · rw [hrecorded]
    exact h.driven area
  · rw [hrecorded]
    exact h.text batch (by simpa using hbatch)
  · rw [h.lastArea, List.filterMap_append]
    exact congrArg List.getLast? (List.append_nil _).symm
  · rcases List.mem_append.1 hdeed with hdeed | hdeed
    · exact h.settled deed hdeed hwrites
    · obtain rfl := List.mem_singleton.1 hdeed
      cases hwrites

theorem perform (h : Records path deeds store) {deed : Deed}
    (hwrite : deed.writes = true → ∃ text, (Medium.write store.medium text).isSome)
    (hids : ∀ batch, deed = .persist batch → ∀ id ∈ batch.ids, id < twoTo 64) :
    (store.perform deed).1 = true ∧ Records path (deeds ++ [deed]) (store.perform deed).2 := by
  cases deed with
  | persist batch =>
    obtain ⟨text, hwritten⟩ := hwrite rfl
    exact h.persist (isFiled_of_write h.opened hwritten) (hids batch rfl)
  | rememberArea area =>
    obtain ⟨text, hwritten⟩ := hwrite rfl
    exact h.rememberArea (isFiled_of_write h.opened hwritten) area
  | reopen =>
    obtain ⟨hreopen, hrecords⟩ := h.reopen
    rw [hreopen]
    exact ⟨rfl, hrecords⟩

theorem run : ∀ {more deeds : List Deed} {store : KeyStore DiskFile}, Records path deeds store →
    store.Takes more → (∀ batch, .persist batch ∈ more → ∀ id ∈ batch.ids, id < twoTo 64) →
      (∀ answer ∈ store.answers more, answer = true)
        ∧ Records path (deeds ++ more) (store.after more)
  | [], deeds, store, h, _, _ => by
    rw [List.append_nil]
    exact ⟨by simp [answers], h⟩
  | deed :: more, deeds, store, h, ⟨hwrite, htakes⟩, hids => by
    obtain ⟨hok, hperformed⟩ := h.perform hwrite fun batch heq => hids batch (by simp [heq])
    obtain ⟨hanswers, hafter⟩ :=
      hperformed.run htakes fun batch hbatch => hids batch (List.mem_cons_of_mem _ hbatch)
    rw [List.append_assoc] at hafter
    exact ⟨List.forall_mem_cons.2 ⟨hok, hanswers⟩, hafter⟩

theorem persist_again (h : Records path deeds store) {batch : Batch}
    (hbatch : .persist batch ∈ deeds) : store.persist batch = (true, store) := by
  -- its segments are all there, so that the very same text is set once more
  rw [persist_eq (h.driven batch.area), recorded_union_of_mem hbatch]
  exact (h.settled _ hbatch rfl).set_again (h.text batch hbatch)

end Records

/-- A store is opened on a file that is not there, or blank. As long as the file takes what is
written, whatever is done with the store succeeds. For each area it has just the segments of the
batches that were stored for it, and the area is the last one that was remembered. To store a batch
again changes neither the store nor the file, to open the file again gives the same store, and
what is done in another order comes to the same segments. -/
theorem keeps_ledger (hmade : disk.makeParents path = .ok made)
    (hblank : made.has path = false
      ∨ ∃ text, made.read path = .ok text ∧ (trimmed text.toList).isEmpty = true) :
    ∃ store, openFile disk path = .ok store ∧ ∀ deeds, store.Takes deeds →
      (∀ batch, .persist batch ∈ deeds → ∀ id ∈ batch.ids, id < twoTo 64) →
        (∀ answer ∈ store.answers deeds, answer = true)
          ∧ (∀ area, ∃ ids, (store.after deeds).driven area = .ok ids ∧ ∀ id, id ∈ ids
            ↔ ∃ batch, .persist batch ∈ deeds ∧ batch.area = area ∧ id ∈ batch.ids)
          ∧ (store.after deeds).lastArea? = (deeds.filterMap Deed.area?).getLast?
          ∧ (∀ batch, .persist batch ∈ deeds →
            (store.after deeds).persist batch = (true, store.after deeds))
          ∧ openFile (store.after deeds).medium.disk path = .ok (store.after deeds)
          ∧ ∀ others, store.Takes others →
            (∀ batch, .persist batch ∈ others ↔ .persist batch ∈ deeds) →
              ∀ area, (store.after others).driven area = (store.after deeds).driven area := by
  have hopen := openFile_blank hmade hblank
  refine ⟨_, hopen, fun deeds htakes hids => ?_⟩
  have hstart := Records.blank hopen
  obtain ⟨hanswers, hrecords⟩ := hstart.run htakes hids
  refine ⟨hanswers, fun area => ⟨_, hrecords.driven area, fun _ => mem_recorded⟩,
    hrecords.lastArea, fun _ => hrecords.persist_again, hrecords.opened, ?_⟩
  intro others htakes' hsame area
  obtain ⟨-, hrecords'⟩ :=
    hstart.run htakes' fun batch hbatch => hids batch ((hsame batch).1 hbatch)
  rw [hrecords'.driven, hrecords.driven]
  exact congrArg Except.ok (recorded_congr hsame area)

end KeyStore

open KeyStore

namespace Trial

/-- A disk with a blank file. -/
def blotter : Disk := Disk.empty.put ["ledger.json"] (.file " \x0a")

/-- Areas whose names are like keys, or need to be quoted. -/
def bookings : List Deed :=
  [.persist ⟨"north", [3, 1]⟩, .rememberArea "north", .persist ⟨"", [7]⟩, .reopen,
    .persist ⟨"coverage/north", [4]⟩, .persist ⟨"north", [2, 3]⟩, .persist ⟨"a/\"b\x00", [5]⟩,
    .rememberArea "a/\"b\x00", .reopen, .persist ⟨"north", [3, 1]⟩]

theorem ids_bookings (batch : Batch) (h : .persist batch ∈ bookings) :
    ∀ id ∈ batch.ids, id < twoTo 64 := by
  simp only [bookings, List.mem_cons, Deed.persist.injEq, reduceCtorEq, List.not_mem_nil, or_false,
    false_or] at h
  rcases h with rfl | rfl | rfl | rfl | rfl | rfl <;> decide

theorem openFile_blotter :
    openFile blotter "ledger.json" = .ok ⟨[], blotter, "ledger.json"⟩ := by
  decide +kernel

theorem takes_bookings :
    ({ entries := [], medium := ⟨blotter, "ledger.json"⟩ } : KeyStore DiskFile).Takes bookings := by
  have hwrite : (Medium.write (⟨blotter, "ledger.json"⟩ : DiskFile) "").isSome := by
    decide +kernel
  exact (isFiled_of_write openFile_blotter hwrite).takes

end Trial

namespace KeyStore

theorem keeps_ledger_blotter : ∃ store, openFile Trial.blotter "ledger.json" = .ok store
    ∧ (∀ answer ∈ store.answers Trial.bookings, answer = true)
    ∧ (store.after Trial.bookings).driven "north" = .ok (.ofList [1, 2, 3])
    ∧ (store.after Trial.bookings).driven "a/\"b\x00" = .ok (.ofList [5])
    ∧ (store.after Trial.bookings).driven "south" = .ok ∅
    ∧ (store.after Trial.bookings).lastArea? = some "a/\"b\x00" := by
  obtain ⟨store, hopen, hledger⟩ := keeps_ledger
    (by decide +kernel : Trial.blotter.makeParents "ledger.json" = .ok Trial.blotter)
    (.inr ⟨" \x0a", by decide +kernel, by decide +kernel⟩)
  have hstore := Except.ok.inj (hopen.symm.trans Trial.openFile_blotter)
  obtain ⟨hanswers, hdriven, hlast, -⟩ :=
    hledger Trial.bookings (hstore ▸ Trial.takes_bookings) Trial.ids_bookings
  have hrecorded : ∀ area,
      (store.after Trial.bookings).driven area = .ok (recorded Trial.bookings area) := by
    intro area
    obtain ⟨ids, hids, hmem⟩ := hdriven area
    rw [hids]
    exact congrArg Except.ok (IdSet.ext fun id => (hmem id).trans mem_recorded.symm)
  have hnorth : recorded Trial.bookings "north" = .ofList [1, 2, 3] := by decide +kernel
  have hquoted : recorded Trial.bookings "a/\"b\x00" = .ofList [5] := by decide +kernel
  have hsouth : recorded Trial.bookings "south" = ∅ := by decide +kernel
  exact ⟨store, hopen, hanswers, hnorth ▸ hrecorded "north", hquoted ▸ hrecorded _,
    hsouth ▸ hrecorded "south", hlast.trans rfl⟩

end KeyStore

end Roadbook
