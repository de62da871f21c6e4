import Mathlib.Tactic.Common
import Roadbook.Text.Json.Decoder
import Roadbook.Text.Json.Writer

/-!
# Reading back what is written

A string is read back as it was written, escapes and all (`stringRest_quoted`), and so is a number
at the end of which stands a comma or a bracket (`value_toDigits`). From these come the two kinds of
text that are stored: lists of numbers (`decode_naturals`) and objects of strings
(`decode_spread`).
-/

namespace Roadbook.Json

section Strings

theorem hexValue?_hexChar :
    ∀ n < 32, hexValue? '0' '0' (hexChar (n / 16)) (hexChar (n % 16)) = some n := by
  decide

theorem stringBody_escaped (reversed : List Char) (c : Char) (rest : List Char) :
    stringBody ⟨reversed, none, false⟩ (escaped c ++ rest)
      = stringBody ⟨c :: reversed, none, false⟩ rest := by
  unfold escaped
  split_ifs with hquote hslash h₁ h₂ h₃ h₄ h₅ hlow
  · subst hquote; rfl
  · subst hslash; rfl
  · subst h₁; rfl
  · subst h₂; rfl
  · subst h₃; rfl
  · subst h₄; rfl
  · subst h₅; rfl
  · have hlt : c.toNat < 32 := hlow
    have hunit : (⟨reversed, none, false⟩ : Scanned).pushUnit c.toNat
        = ⟨c :: reversed, none, false⟩ := by
      unfold Scanned.pushUnit
      rw [if_neg (by omega), if_neg (by omega), Char.ofNat_toNat]
      rfl
    simp only [List.cons_append, List.nil_append]
    rw [stringBody]
    simp only [hexValue?_hexChar c.toNat hlt, hunit]
  · -- the character stands for itself, and a reader takes it for no other kind
    rw [List.singleton_append, stringBody.eq_def]
    split <;> simp_all
    exact if_neg (Char.not_lt.2 hlow)

theorem stringBody_quoted (cs : List Char) : ∀ (reversed : List Char) (rest : List Char),
    stringBody ⟨reversed, none, false⟩ (cs.flatMap escaped ++ '"' :: rest)
      = (.ok (some (String.ofList (reversed.reverse ++ cs))), some rest) := by
  induction cs with
  | nil => simp [stringBody, Scanned.close]
  | cons c cs ih =>
    intro reversed rest
    rw [List.flatMap_cons, List.append_assoc, stringBody_escaped, ih]
    simp

theorem stringRest_quoted (s : String) (rest : List Char) :
    stringRest (s.toList.flatMap escaped ++ '"' :: rest) = (.ok (some s), some rest) := by
  unfold stringRest Scanned.empty
  rw [stringBody_quoted]
  simp

theorem value_quoted (fuel : Nat) (s : String) (rest : List Char) :
    value (fuel + 1) (' ' :: quoted s ++ rest) = (string s, some rest) := by
  have hskip : skipBlank (' ' :: quoted s ++ rest)
      = '"' :: (s.toList.flatMap escaped ++ '"' :: rest) := by
    simp [skipBlank, isBlank, quoted]
  unfold value
  rw [hskip]
  simp only [stringRest_quoted]

end Strings

section Numbers

theorem digitsValue_toDigits (n : Nat) : digitsValue (Nat.toDigits 10 n) = n :=
  Nat.ofDigitChars_ten_toDigits

/-- The digits of a number start with a zero just if it is zero. -/
theorem exists_toDigits {n : Nat} (h : 0 < n) : ∃ d ds, Nat.toDigits 10 n = d :: ds ∧ d ≠ '0' := by
  induction n using Nat.strongRecOn with
  | ind n ih =>
    rw [Nat.toDigits_eq_if (by omega)]
    split_ifs with hlt
    · exact ⟨_, [], rfl, by simpa using Nat.ne_of_gt h⟩
    · obtain ⟨d, ds, hds, hd⟩ := ih (n / 10) (by omega) (by omega)
      exact ⟨d, ds ++ [(n % 10).digitChar], by rw [hds]; rfl, hd⟩

/-- A text at which a number in a list ends. -/
def EndsNumber (rest : List Char) : Prop := rest.head? = some ',' ∨ rest.head? = some ']'

theorem EndsNumber.cases {rest : List Char} (h : EndsNumber rest) :
    ∃ cs, rest = ',' :: cs ∨ rest = ']' :: cs := by
  rcases rest with _ | ⟨c, cs⟩
  · simp [EndsNumber] at h
  · refine ⟨cs, ?_⟩
    simpa [EndsNumber] using h

theorem numberFrom_digits {ds rest : List Char} (h : EndsNumber rest) :
    numberFrom false ds rest = (ofDigits false (digitsValue ds), some rest) := by
  obtain ⟨cs, rfl | rfl⟩ := h.cases <;> rfl

theorem span_toDigits (n : Nat) {rest : List Char} (h : EndsNumber rest) :
    (Nat.toDigits 10 n ++ rest).takeWhile Literal.isDigit = Nat.toDigits 10 n
      ∧ (Nat.toDigits 10 n ++ rest).dropWhile Literal.isDigit = rest := by
  have hdigits : ∀ c ∈ Nat.toDigits 10 n, Literal.isDigit c = true :=
    fun c hc => Nat.isDigit_of_mem_toDigits (by omega) (by omega) hc
  rw [List.takeWhile_append_of_pos hdigits, List.dropWhile_append_of_pos hdigits]
  obtain ⟨cs, rfl | rfl⟩ := h.cases <;> exact ⟨List.append_nil _, rfl⟩

theorem unsigned_toDigits {n : Nat} {rest : List Char} (h : EndsNumber rest) :
    unsigned false (Nat.toDigits 10 n ++ rest) = (ofDigits false n, some rest) := by
  rcases n.eq_zero_or_pos with rfl | hpos
  · obtain ⟨cs, rfl | rfl⟩ := h.cases <;> rfl
  · obtain ⟨d, ds, hds, hd⟩ := exists_toDigits hpos
    obtain ⟨htake, hdrop⟩ := span_toDigits n h
    unfold unsigned
    split
    · rename_i heq
      rw [hds] at heq
      exact absurd (List.cons.inj heq).1 hd
    · rw [htake, hdrop, if_neg (by simp [hds]), numberFrom_digits h, digitsValue_toDigits]

theorem ne_of_mem_toDigits {n : Nat} {d c : Char} (h : d ∈ Nat.toDigits 10 n)
    (hc : Literal.isDigit c = false) : d ≠ c := by
  rintro rfl
  have hdigit : Literal.isDigit d = true := Nat.isDigit_of_mem_toDigits (by omega) (by omega) h
  cases hdigit.symm.trans hc

theorem skipBlank_toDigits (n : Nat) (rest : List Char) :
    skipBlank (Nat.toDigits 10 n ++ rest) = Nat.toDigits 10 n ++ rest := by
  obtain ⟨d, ds, hds⟩ := List.exists_cons_of_ne_nil (Nat.toDigits_ne_nil (n := n) (b := 10))
  have hother : ∀ c, Literal.isDigit c = false → d ≠ c :=
    fun c hc => ne_of_mem_toDigits (hds ▸ List.mem_cons_self) hc
  rw [hds]
  refine List.dropWhile_cons_of_neg ?_
  simp only [isBlank, decide_eq_true_eq, not_or]
  exact ⟨hother _ rfl, hother _ rfl, hother _ rfl, hother _ rfl⟩

theorem value_toDigits (fuel : Nat) {n : Nat} {rest : List Char} (h : EndsNumber rest) :
    value (fuel + 1) (Nat.toDigits 10 n ++ rest) = (ofDigits false n, some rest) := by
  obtain ⟨d, ds, hds⟩ := List.exists_cons_of_ne_nil (Nat.toDigits_ne_nil (n := n) (b := 10))
  have hmem : d ∈ Nat.toDigits 10 n := hds ▸ List.mem_cons_self
  have hnumber : number (d :: (ds ++ rest)) = (ofDigits false n, some rest) := by
    unfold number
    split
    · rename_i heq
      exact absurd (List.cons.inj heq).1 (ne_of_mem_toDigits hmem rfl)
    · rw [← unsigned_toDigits h, hds]
      rfl
  unfold value
  rw [skipBlank_toDigits, hds, List.cons_append]
  split
  case h_1 heq => cases heq
  case h_8 =>
    rename_i heq
    obtain ⟨rfl, rfl⟩ := List.cons.inj heq
    rw [if_pos (.inr (Nat.isDigit_of_mem_toDigits (by omega) (by omega) hmem)), hnumber]
  all_goals
    rename_i heq
    exact absurd (List.cons.inj heq).1 (ne_of_mem_toDigits hmem rfl)

theorem items_separated (rest : List Char) : ∀ (n : Nat) (ns : List Nat) (fuel : Nat),
    ns.length + 2 ≤ fuel →
      items fuel (separated [','] ((n :: ns).map (Nat.toDigits 10)) ++ ']' :: rest)
        = (((n :: ns).map (ofDigits false), none), some rest)
  | n, [], fuel + 2, _ => by
    have hvalue : value (fuel + 1) (separated [','] [Nat.toDigits 10 n] ++ ']' :: rest)
        = (ofDigits false n, some (']' :: rest)) := value_toDigits fuel (.inr rfl)
    have hskip : skipBlank (']' :: rest) = ']' :: rest := rfl
    simp only [items, List.map_cons, List.map_nil, hvalue, hskip]
  | n, m :: ns, fuel + 2, hfuel => by
    have ih := items_separated rest m ns (fuel + 1) (Nat.le_of_succ_le_succ hfuel)
    set others := separated [','] ((m :: ns).map (Nat.toDigits 10)) ++ ']' :: rest
    have hvalue : value (fuel + 1)
        (separated [','] ((n :: m :: ns).map (Nat.toDigits 10)) ++ ']' :: rest)
          = (ofDigits false n, some (',' :: others)) := by
      have htext : separated [','] ((n :: m :: ns).map (Nat.toDigits 10)) ++ ']' :: rest
          = Nat.toDigits 10 n ++ ',' :: others := by simp [separated, others]
      rw [htext, value_toDigits fuel (.inl rfl)]
    have hskip : skipBlank (',' :: others) = ',' :: others := rfl
    rw [items, hvalue]
    simp only [hskip, ih]
    rfl

theorem length_le_separated (separator : List Char) : ∀ texts : List (List Char),
    (∀ text ∈ texts, text ≠ []) → texts.length ≤ (separated separator texts).length
  | [], _ => Nat.le_refl 0
  | [text], h => List.length_pos_iff.2 (h text List.mem_cons_self)
  | text :: next :: texts, h => by
    have ih := length_le_separated separator (next :: texts)
      fun t ht => h t (List.mem_cons_of_mem _ ht)
    have hpos := List.length_pos_iff.2 (h text List.mem_cons_self)
    simp only [separated, List.length_append, List.length_cons] at ih ⊢
    omega

theorem separated_cons (separator text : List Char) (texts : List (List Char)) :
    ∃ more, separated separator (text :: texts) = text ++ more := by
  rcases texts with _ | ⟨next, texts⟩
  · exact ⟨[], (List.append_nil text).symm⟩
  · exact ⟨_, List.append_assoc ..⟩

theorem value_naturals (rest : List Char) (n : Nat) (ns : List Nat) {fuel : Nat}
    (hfuel : ns.length + 2 ≤ fuel) :
    value (fuel + 1) ('[' :: (separated [','] ((n :: ns).map (Nat.toDigits 10)) ++ ']' :: rest))
      = (array ((n :: ns).map (ofDigits false)) none, some rest) := by
  have hitems := items_separated rest n ns fuel hfuel
  obtain ⟨more, hmore⟩ := separated_cons [','] (Nat.toDigits 10 n) (ns.map (Nat.toDigits 10))
  obtain ⟨d, ds, hds⟩ := List.exists_cons_of_ne_nil (Nat.toDigits_ne_nil (n := n) (b := 10))
  have hskip : skipBlank (separated [','] ((n :: ns).map (Nat.toDigits 10)) ++ ']' :: rest)
      = d :: (ds ++ (more ++ ']' :: rest)) := by
    rw [List.map_cons, hmore, List.append_assoc, skipBlank_toDigits, hds, List.cons_append]
  have hopen : ∀ cs, skipBlank ('[' :: cs) = '[' :: cs := fun _ => rfl
  unfold value
  rw [hopen]
  simp only [hskip, hitems]
  split
  · rename_i heq
    exact absurd (List.cons.inj heq).1 (ne_of_mem_toDigits (hds ▸ List.mem_cons_self) rfl)
  · rfl

theorem itemsChars_naturals : ∀ ns : List Nat,
    itemsChars (ns.map fun n : Nat => .int n) = ns.map (Nat.toDigits 10)
  | [] => rfl
  | n :: ns => by
    have hchars : chars (.int n) = Nat.toDigits 10 n := Nat.toList_repr
    rw [List.map_cons, itemsChars, hchars, itemsChars_naturals ns, List.map_cons]

theorem read_naturals (ns : List Nat) :
    read (compact (.list (ns.map fun n : Nat => .int n)))
      = (array (ns.map (ofDigits false)) none, some []) := by
  have htext : (compact (.list (ns.map fun n : Nat => .int n))).toList
      = '[' :: (separated [','] (ns.map (Nat.toDigits 10)) ++ [']']) := by
    rw [compact, String.toList_ofList, list, chars, itemsChars_naturals]
    rfl
  unfold read
  rw [htext]
  rcases ns with _ | ⟨n, ns⟩
  · rfl
  · have hlength := length_le_separated [','] ((n :: ns).map (Nat.toDigits 10)) (by
      intro text htext
      obtain ⟨m, -, rfl⟩ := List.mem_map.1 htext
      exact Nat.toDigits_ne_nil)
    refine value_naturals [] n ns ?_
    simp only [List.length_map, List.length_cons, List.length_append] at hlength ⊢
    omega

theorem nat_ofDigits {n : Nat} (h : n < twoTo 64) : Decoder.nat (ofDigits false n) = .ok n := by
  have hleast : ¬ (n : Int) < least := by
    unfold least
    omega
  have hbound : (n : Int) < bound := Int.ofNat_lt.2 h
  have hint : ofDigits false n = int n := by
    unfold ofDigits
    simp [hleast, Int.not_le.2 hbound]
  have hrange : (0 : Int) ≤ n ∧ (n : Int) < twoTo 64 := ⟨Int.natCast_nonneg n, hbound⟩
  rw [hint, Decoder.nat, Decoder.intIn, if_pos hrange]
  rfl

theorem mapM_of_ok {β γ : Type} {f : β → Except DecodeError γ} {g : γ → β} :
    ∀ {cs : List γ}, (∀ c ∈ cs, f (g c) = .ok c) → (cs.map g).mapM f = .ok cs
  | [], _ => rfl
  | c :: cs, h => by
    have ih := mapM_of_ok fun c hc => h c (List.mem_cons_of_mem _ hc)
    rw [List.map_cons, List.mapM_cons, h c List.mem_cons_self, ih]
    rfl

/-- Numbers of 64 bits are read back. -/
theorem decode_naturals {ns : List Nat} (h : ∀ n ∈ ns, n < twoTo 64) :
    decode (Decoder.list Decoder.nat) (compact (.list (ns.map fun n : Nat => .int n)))
      = .ok ns := by
  unfold decode
  rw [read_naturals]
  simp only [Decoder.list]
  rw [mapM_of_ok fun n hn => nat_ofDigits (h n hn)]
  rfl

end Numbers

section Objects

/-- How a member of an object stands on its line. -/
def line (member : String × String) : List Char :=
  ['\n', ' ', ' '] ++ quoted member.1 ++ [':', ' '] ++ quoted member.2

theorem skipBlank_line (e : String × String) (rest : List Char) : skipBlank (line e ++ rest)
    = '"' :: (e.1.toList.flatMap escaped ++ '"' :: (':' :: (' ' :: quoted e.2 ++ rest))) := by
  simp [line, quoted, skipBlank, isBlank]

theorem skipBlank_colon (rest : List Char) : skipBlank (':' :: rest) = ':' :: rest := rfl

theorem members_line_end (fuel : Nat) (e : String × String) (rest : List Char) :
    members (fuel + 2) (line e ++ '\n' :: '\x7d' :: rest)
      = (([(some e.1, string e.2)], none), some rest) := by
  have hskip : skipBlank ('\n' :: '\x7d' :: rest) = '\x7d' :: rest := rfl
  rw [members, skipBlank_line]
  simp only [stringRest_quoted, skipBlank_colon, value_quoted, hskip]

theorem members_line_comma {fuel : Nat} {more : List Char} {out : Option (List Char)}
    {vs : List (Option String × Json)} (h : members (fuel + 1) more = ((vs, none), out))
    (e : String × String) :
    members (fuel + 2) (line e ++ ',' :: more) = (((some e.1, string e.2) :: vs, none), out) := by
  have hskip : skipBlank (',' :: more) = ',' :: more := rfl
  rw [members, skipBlank_line]
  simp only [stringRest_quoted, skipBlank_colon, value_quoted, hskip, h]

theorem members_lines (rest : List Char) : ∀ (e : String × String) (es : List (String × String))
    (fuel : Nat), es.length + 2 ≤ fuel →
      members fuel (separated [','] ((e :: es).map line) ++ '\n' :: '\x7d' :: rest)
        = (((e :: es).map fun e => (some e.1, string e.2), none), some rest)
  | e, [], fuel + 2, _ => members_line_end fuel e rest
  | e, next :: es, fuel + 2, hfuel => by
    have ih := members_lines rest next es (fuel + 1) (Nat.le_of_succ_le_succ hfuel)
    have htext : separated [','] ((e :: next :: es).map line) ++ '\n' :: '\x7d' :: rest
        = line e ++ ',' :: (separated [','] ((next :: es).map line) ++ '\n' :: '\x7d' :: rest) := by
      simp [separated]
    rw [htext, members_line_comma ih]
    rfl

theorem value_lines (rest : List Char) (e : String × String) (es : List (String × String))
    {fuel : Nat} (hfuel : es.length + 2 ≤ fuel) :
    value (fuel + 1) ('\x7b' :: (separated [','] ((e :: es).map line) ++ '\n' :: '\x7d' :: rest))
      = (object ((e :: es).map fun e => (some e.1, string e.2)) none, some rest) := by
  have hmembers := members_lines rest e es fuel hfuel
  obtain ⟨more, hmore⟩ := separated_cons [','] (line e) (es.map line)
  have hskip : ∃ cs, skipBlank (separated [','] ((e :: es).map line) ++ '\n' :: '\x7d' :: rest)
      = '"' :: cs := by
    rw [List.map_cons, hmore]
    exact ⟨_, rfl⟩
  obtain ⟨cs, hskip⟩ := hskip
  have hopen : ∀ cs, skipBlank ('\x7b' :: cs) = '\x7b' :: cs := fun _ => rfl
  unfold value
  rw [hopen]
  simp only [hskip, hmembers]
  rfl

theorem toList_spread (e : String × String) (es : List (String × String)) :
    (spread (e :: es)).toList
      = '\x7b' :: (separated [','] ((e :: es).map line) ++ ['\n', '\x7d']) :=
  String.toList_ofList

theorem read_spread (es : List (String × String)) :
    read (spread es) = (object (es.map fun e => (some e.1, string e.2)) none, some []) := by
  rcases es with _ | ⟨e, es⟩
  · have hempty : (spread []).toList = ['\x7b', '\x7d'] := String.toList_ofList
    unfold read
    rw [hempty]
    rfl
  · have hlength := length_le_separated [','] ((e :: es).map line) (by
      intro text htext
      obtain ⟨m, -, rfl⟩ := List.mem_map.1 htext
      simp [line])
    unfold read
    rw [toList_spread]
    refine value_lines [] e es ?_
    simp only [List.length_map, List.length_cons, List.length_append] at hlength ⊢
    omega

/-- An object of strings is read back. -/
theorem decode_spread (es : List (String × String)) :
    decode (Decoder.members Decoder.string) (spread es) = .ok es := by
  unfold decode
  rw [read_spread]
  simp only [Decoder.members]
  rw [mapM_of_ok (g := fun e : String × String => (some e.1, string e.2)) fun _ _ => rfl]
  rfl

end Objects

end Roadbook.Json
