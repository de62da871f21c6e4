import Roadbook.Proofs.Storage.KeyStore
import Roadbook.Proofs.Text.Decoder

/-!
# What is stored for an area

The segments stored for an area are those that were last set for it (`KeyStore.driven_setIds`), and
storing a batch adds it to them (`KeyStore.IsFiled.persist`).
-/

namespace Roadbook.KeyStore

theorem areaKey_ne_lastAreaKey (area : String) : areaKey area ≠ lastAreaKey := by
  intro h
  have hchars : (areaKey area).toList = lastAreaKey.toList := by rw [h]
  rw [areaKey, String.toList_append] at hchars
  cases hchars

theorem areaKey_injective : Function.Injective areaKey := by
  intro area area' h
  have hchars : (areaKey area).toList = (areaKey area').toList := by rw [h]
  rw [areaKey, areaKey, String.toList_append, String.toList_append] at hchars
  exact String.toList_injective (List.append_cancel_left hchars)

section Driven

variable {δ : Type} {store : KeyStore δ} {area : String}

/-- The numbers that are stored have 64 bits. -/
theorem driven_lt {ids : IdSet} (h : store.driven area = .ok ids) : ∀ id ∈ ids, id < twoTo 64 := by
  unfold driven at h
  split at h
  · rename_i stored hstored
    cases h
    intro id hid
    rw [IdSet.mem_ofList] at hid
    unfold ids? at hstored
    split at hstored
    · cases hstored
      cases hid
    · split at hstored
      · rename_i hdecode
        cases hstored
        obtain ⟨j, hj⟩ := Json.exists_decode hdecode
        obtain ⟨_, hid⟩ := Decoder.mem_list hj id hid
        exact Decoder.nat_lt hid
      · cases hstored
  · cases h

theorem driven_congr {store' : KeyStore δ}
    (h : store'.get? (areaKey area) = store.get? (areaKey area)) :
    store'.driven area = store.driven area := by
  unfold driven ids?
  rw [h]

variable [Medium δ]

theorem driven_setIds {ids : IdSet} (h : ∀ id ∈ ids, id < twoTo 64) :
    (store.setIds area ids.toList).2.driven area = .ok ids := by
  have hdecode : Json.decode (Decoder.list Decoder.nat) (idsText ids.toList) = .ok ids.toList :=
    Json.decode_naturals h
  unfold driven ids? setIds
  rw [get?_set, if_pos rfl]
  simp only [hdecode, Option.getD_some, IdSet.ofList_toList]

end Driven

section Same

variable {δ : Type} [Medium δ]

theorem lastArea?_rememberArea (store : KeyStore δ) (name : String) :
    (store.rememberArea name).2.lastArea? = some name := by
  unfold lastArea? rememberArea
  rw [get?_set, if_pos rfl]

/-- A batch is stored by setting what is stored for its area, with the batch added to it. -/
theorem persist_eq {store : KeyStore δ} {batch : Batch} {ids : IdSet}
    (hdriven : store.driven batch.area = .ok ids) :
    store.persist batch = store.setIds batch.area (ids.union (.ofList batch.ids)).toList := by
  simp only [persist, hdriven]

/-- Storing a batch changes what is stored for its area, or nothing. -/
theorem persist_cases (store : KeyStore δ) (batch : Batch) :
    store.persist batch = (false, store)
      ∨ ∃ ids, store.persist batch = store.setIds batch.area ids := by
  unfold persist
  split
  · exact .inr ⟨_, rfl⟩
  · exact .inl rfl

theorem lastArea?_persist (store : KeyStore δ) (batch : Batch) :
    (store.persist batch).2.lastArea? = store.lastArea? := by
  rcases store.persist_cases batch with heq | ⟨ids, heq⟩ <;> rw [heq]
  unfold lastArea? setIds
  rw [get?_set, if_neg (areaKey_ne_lastAreaKey batch.area).symm]

end Same

section File

variable {store : KeyStore DiskFile} {path area : String}

theorem IsFiled.rememberArea (h : store.IsFiled path) (name area : String) :
    (store.rememberArea name).2.IsFiled path
      ∧ (store.rememberArea name).2.driven area = store.driven area
      ∧ ∀ key, key ≠ lastAreaKey → (store.rememberArea name).2.get? key = store.get? key := by
  have hsame : ∀ key, key ≠ lastAreaKey → (store.rememberArea name).2.get? key = store.get? key :=
    fun key hkey => by rw [KeyStore.rememberArea, get?_set, if_neg hkey]
  exact ⟨(h.set _ _).2, driven_congr (hsame _ (areaKey_ne_lastAreaKey area)), hsame⟩

theorem IsFiled.persisted (h : store.IsFiled path) (batch : Batch) :
    (store.persist batch).2.IsFiled path := by
  rcases store.persist_cases batch with heq | ⟨ids, heq⟩ <;> rw [heq]
  · exact h
  · exact (h.set _ _).2

theorem IsFiled.persist {batch : Batch} {ids : IdSet} (h : store.IsFiled path)
    (hdriven : store.driven batch.area = .ok ids) (hbatch : ∀ id ∈ batch.ids, id < twoTo 64) :
    (store.persist batch).1 = true ∧ (store.persist batch).2.IsFiled path
      ∧ (store.persist batch).2.driven batch.area = .ok (ids.union (.ofList batch.ids))
      ∧ ∀ key, key ≠ areaKey batch.area → (store.persist batch).2.get? key = store.get? key := by
  have hlt : ∀ id ∈ ids.union (.ofList batch.ids), id < twoTo 64 := by
    intro id hid
    rcases IdSet.mem_union.1 hid with hid | hid
    · exact driven_lt hdriven id hid
    · exact hbatch id (IdSet.mem_ofList.1 hid)
  rw [persist_eq hdriven]
  obtain ⟨hok, hfiled⟩ :=
    h.set (areaKey batch.area) (idsText (ids.union (.ofList batch.ids)).toList)
  exact ⟨hok, hfiled, driven_setIds hlt, fun key hkey => by rw [setIds, get?_set, if_neg hkey]⟩

end File

end Roadbook.KeyStore
