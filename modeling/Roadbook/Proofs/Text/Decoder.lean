import Mathlib.Tactic.Common
import Roadbook.Text.Json.Decoder

/-!
# What decoders answer

The items of a list that was decoded are what its decoder answers (`Decoder.mem_list`). A record
that was decoded has every property that the initial one has and that storing a field keeps
(`Decoder.record_induction`).
-/

namespace Roadbook.Decoder

variable {β γ : Type}

theorem bind_eq_ok {ε : Type} {x : Except ε β} {f : β → Except ε γ} {c : γ}
    (h : (x >>= f) = .ok c) : ∃ b, x = .ok b ∧ f b = .ok c := by
  rcases x with e | b
  · cases h
  · exact ⟨b, rfl, h⟩

theorem map_eq_ok {ε : Type} {x : Except ε β} {f : β → γ} {c : γ} (h : x.map f = .ok c) :
    ∃ b, x = .ok b ∧ f b = c := by
  rcases x with e | b
  · cases h
  · exact ⟨b, rfl, Except.ok.inj h⟩

theorem refuse_ne_ok {j : Json} {b : β} : refuse j ≠ .ok b := by
  unfold refuse
  split <;> nofun

theorem nat_lt {j : Json} {n : Nat} (h : nat j = .ok n) : n < twoTo 64 := by
  obtain ⟨m, hm, rfl⟩ := map_eq_ok h
  unfold intIn at hm
  split at hm
  · split_ifs at hm with hrange
    cases hm
    omega
  · exact absurd hm refuse_ne_ok

theorem mem_mapM {decode : γ → Except DecodeError β} : ∀ {js : List γ} {bs : List β},
    js.mapM decode = .ok bs → ∀ b ∈ bs, ∃ j, decode j = .ok b
  | [], bs, h, b, hb => by
    cases h
    cases hb
  | j :: js, bs, h, b, hb => by
    rw [List.mapM_cons] at h
    obtain ⟨b₁, hb₁, h⟩ := bind_eq_ok h
    obtain ⟨bs₁, hbs₁, h⟩ := bind_eq_ok h
    cases h
    rcases List.mem_cons.1 hb with rfl | hb
    · exact ⟨j, hb₁⟩
    · exact mem_mapM hbs₁ b hb

theorem mem_list {decode : Decoder β} {j : Json} {bs : List β} (h : list decode j = .ok bs) :
    ∀ b ∈ bs, ∃ j, decode j = .ok b := by
  unfold list at h
  split at h
  · obtain ⟨bs₁, hbs₁, h⟩ := bind_eq_ok h
    obtain ⟨-, -, h⟩ := bind_eq_ok h
    cases h
    exact mem_mapM hbs₁
  · exact absurd h refuse_ne_ok

section Record

variable {P : β → Prop} {fields : List (Member β)}

/-- Storing any of the fields keeps a property. -/
def Keep (P : β → Prop) (fields : List (Member β)) : Prop :=
  ∀ f ∈ fields, ∀ j b b', f.read j b = .ok b' → P b → P b'

theorem readMembers_induction (hkeep : Keep P fields) :
    ∀ {members : List (Option String × Json)} {seen : List String} {b : β}
      {out : List String × β}, readMembers fields seen b members = .ok out → P b → P out.2
  | [], _, _, _, h, hb => by
    cases h
    exact hb
  | (k, j) :: members, seen, b, out, h, hb => by
    unfold readMembers at h
    obtain ⟨name, -, h⟩ := bind_eq_ok h
    split at h
    · rename_i f hf
      split_ifs at h
      obtain ⟨b', hb', h⟩ := bind_eq_ok h
      exact readMembers_induction hkeep h (hkeep f (List.mem_of_find?_eq_some hf) j b b' hb' hb)
    · obtain ⟨-, -, h⟩ := bind_eq_ok h
      exact readMembers_induction hkeep h hb

theorem readItems_induction : ∀ {fields : List (Member β)} {items : List Json} {b : β}
    {out : List (Member β) × β}, Keep P fields → readItems b fields items = .ok out → P b → P out.2
  | fields, [], b, _, _, h, hb => by
    have hend : readItems b fields [] = .ok (fields, b) := by cases fields <;> rfl
    cases hend.symm.trans h
    exact hb
  | [], _ :: _, _, _, _, h, _ => by cases h
  | f :: fields, j :: items, b, out, hkeep, h, hb => by
    unfold readItems at h
    obtain ⟨b', hb', h⟩ := bind_eq_ok h
    exact readItems_induction (fun g hg => hkeep g (List.mem_cons_of_mem _ hg)) h
      (hkeep f List.mem_cons_self j b b' hb' hb)

theorem record_induction (hkeep : Keep P fields) {initial b : β} {j : Json}
    (h : record fields initial j = .ok b) (hinitial : P initial) : P b := by
  unfold record at h
  split at h
  · obtain ⟨⟨seen, b'⟩, hread, h⟩ := bind_eq_ok h
    obtain ⟨-, -, h⟩ := bind_eq_ok h
    split_ifs at h
    cases h
    exact readMembers_induction hkeep hread hinitial
  · obtain ⟨⟨left, b'⟩, hread, h⟩ := bind_eq_ok h
    obtain ⟨-, -, h⟩ := bind_eq_ok h
    split_ifs at h
    cases h
    exact readItems_induction hkeep hread hinitial
  · exact absurd h refuse_ne_ok

theorem keep_nil : Keep P ([] : List (Member β)) := by
  intro f hf
  cases hf

theorem keep_cons {name : String} {required : Bool} {decode : Decoder γ} {store : γ → β → β}
    (hstore : ∀ j c b, decode j = .ok c → P b → P (store c b)) (h : Keep P fields) :
    Keep P ({ field name decode store with required := required } :: fields) := by
  intro f hf j b b' hread hb
  rcases List.mem_cons.1 hf with rfl | hf
  · obtain ⟨c, hc, rfl⟩ := map_eq_ok hread
    exact hstore j c b hc hb
  · exact h f hf j b b' hread hb

end Record

end Roadbook.Decoder

namespace Roadbook.Json

theorem exists_decode {β : Type} {decode : Decoder β} {text : String} {b : β}
    (h : Json.decode decode text = .ok b) : ∃ j, decode j = .ok b := by
  unfold Json.decode at h
  split at h
  rename_i j rest _
  obtain ⟨b', hb', h⟩ := Decoder.bind_eq_ok h
  refine ⟨j, ?_⟩
  split at h
  · split_ifs at h
    cases h
    exact hb'
  · cases h

end Roadbook.Json
