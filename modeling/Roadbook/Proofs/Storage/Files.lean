import Roadbook.Proofs.Text.Decoder
import Roadbook.Storage.Files

/-!
# What is read from a disk

An area that is read has the name it was asked for, and the numbers of its segments have 64 bits.
-/

namespace Roadbook

open Decoder

theorem Segment.id_lt {j : Json} {s : Segment Float} (h : Segment.decoder j = .ok s) :
    s.id < twoTo 64 := by
  have hkeeps : ∀ {γ : Type} {decode : Decoder γ} {store : γ → Segment Float → Segment Float},
      (∀ c s, (store c s).id = s.id) → ∀ j c s, decode j = .ok c → s.id < twoTo 64 →
        (store c s).id < twoTo 64 := by
    intro γ decode store hsame j c s _ hs
    rwa [hsame]
  refine record_induction (P := fun s => s.id < twoTo 64) ?_ h (by decide)
  exact keep_cons (fun _ _ _ hid _ => nat_lt hid) <| keep_cons (hkeeps fun _ _ => rfl) <|
    keep_cons (hkeeps fun _ _ => rfl) <| keep_cons (hkeeps fun _ _ => rfl) <|
    keep_cons (hkeeps fun _ _ => rfl) keep_nil

theorem Area.coverage_read {name : String} {route : List (Point Float)} {j : Json}
    {area : Area Float} (h : coverageDecoder name route j = .ok area) :
    area.name = name ∧ ∀ s ∈ area.segments, s.id < twoTo 64 := by
  refine record_induction (P := fun area => area.name = name ∧ ∀ s ∈ area.segments, s.id < twoTo 64)
    ?_ h ⟨rfl, by simp⟩
  refine keep_cons (fun _ segments _ hsegments harea => ⟨harea.1, fun s hs => ?_⟩) <|
    keep_cons (fun _ _ _ _ harea => harea) keep_nil
  obtain ⟨_, hdecoded⟩ := mem_list hsegments s hs
  exact Segment.id_lt hdecoded

theorem Disk.area_read {disk : Disk} {folder name : String} {area : Area Float}
    (h : disk.area folder name = .ok area) :
    area.name = name ∧ ∀ s ∈ area.segments, s.id < twoTo 64 := by
  unfold Disk.area at h
  obtain ⟨document, -, h⟩ := bind_eq_ok h
  split at h
  · obtain ⟨route, -, h⟩ := bind_eq_ok h
    obtain ⟨text, -, h⟩ := bind_eq_ok h
    split at h
    · rename_i text
      rcases hdecode : Json.decode (Area.coverageDecoder name route) text with fault | decoded
      · rw [hdecode] at h
        cases h
      · rw [hdecode] at h
        obtain ⟨j, hj⟩ := Json.exists_decode hdecode
        cases h
        exact Area.coverage_read hj
    · cases h
      exact ⟨rfl, by simp⟩
  · cases h

/-- Areas have the names that they are asked for by, and the numbers of their segments have 64
bits. -/
class LawfulFiles (α : Type) [Files α] : Prop where
  area_name {disk : Disk} {folder name : String} {area : Area α}
    (h : Files.area disk folder name = .ok area) : area.name = name
  id_lt {disk : Disk} {folder name : String} {area : Area α}
    (h : Files.area disk folder name = .ok area) : ∀ s ∈ area.segments, s.id < twoTo 64

instance : LawfulFiles Float where
  area_name h := (Disk.area_read h).1
  id_lt h := (Disk.area_read h).2

end Roadbook
