import Roadbook.Text.Xml.Token

/-!
# The source of a document's tokens

A source is what is left of a document, with the texts of entities put before it where a reference
opened them. Not more than ten entities may be opened before the document itself has to go on; so
reading comes to an end (`next?_lessens`, `expand?_lessens`), and `Source.feed` can hand all tokens
to a reader, until that is done or the document is at fault.
-/

namespace Roadbook.Xml

/-- What a reader makes of a token. -/
inductive Turn (σ β : Type) where
  | more (state : σ)
  /-- The reader goes on with the text of an entity. -/
  | expand (state : σ) (entity : List Char)
  | done (answer : β)

/-- The turn of a reader that has left a part of its work to another one. -/
def Turn.within {σ τ β γ : Type} (wrap : σ → τ) (finish : β → Option (Turn τ γ)) :
    Turn σ β → Option (Turn τ γ)
  | more state => some (more (wrap state))
  | expand state entity => some (expand (wrap state) entity)
  | done answer => finish answer

structure Source where
  chars : List Char
  /-- How many of the characters are from entities. -/
  borrowed : Nat
  /-- How many entities have been opened since the document itself went on. -/
  depth : Nat
  setting : Setting

namespace Source

def deepest : Nat := 10

/-- No entity is opened before more characters than these from other ones. -/
def mostBorrowed : Nat := 1000000

/-- How many characters of the document itself are left. -/
def own (s : Source) : Nat := s.chars.length - s.borrowed

def next? (s : Source) : Option (Token × Source) :=
  match s.setting.token? s.chars with
  | some (t, rest) =>
    let size := t.chars.length
    some (t, ⟨rest, s.borrowed - size, if s.borrowed < size then 0 else s.depth, s.setting.after t⟩)
  | none => none

/-- Puts the text of an entity before the rest. -/
def expand? (s : Source) (entity : List Char) : Option Source :=
  if entity.isEmpty then some s
  else if s.depth < deepest ∧ s.borrowed ≤ mostBorrowed then
    some ⟨entity ++ s.chars, entity.length + s.borrowed, s.depth + 1, s.setting⟩
  else none

theorem next?_lessens {s rest : Source} {t : Token} (h : s.next? = some (t, rest)) :
    rest.own < s.own ∨
      rest.own = s.own ∧ rest.depth = s.depth ∧ rest.chars.length < s.chars.length := by
  unfold next? at h
  split at h
  · rename_i u cs hu
    simp only [Option.some.injEq, Prod.mk.injEq] at h
    obtain ⟨-, rfl⟩ := h
    have hl := congrArg List.length (Setting.token?_eq_some hu)
    have hp := u.length_chars_pos
    simp only [List.length_append] at hl
    simp only [own]
    split <;> omega
  · simp at h

theorem expand?_lessens {s more : Source} {entity : List Char}
    (h : s.expand? entity = some more) :
    more = s ∨ more.own = s.own ∧ deepest - more.depth < deepest - s.depth := by
  unfold expand? at h
  split at h
  · left
    simpa using h.symm
  · split at h
    · right
      simp only [Option.some.injEq] at h
      subst h
      simp only [own, List.length_append]
      omega
    · simp at h

/-- Hands tokens to a reader until it is done; the answer is its answer and the rest. If the source
is at fault, the answer is where that leaves the reader. -/
def feed {σ β : Type} (step : σ → Token → Option (Turn σ β)) (state : σ) (s : Source) :
    Except σ (β × Source) :=
  match _ : s.next? with
  | none => .error state
  | some (t, rest) =>
    match step state t with
    | none => .error state
    | some (.done answer) => .ok (answer, rest)
    | some (.more state) => feed step state rest
    | some (.expand state entity) =>
      match _ : rest.expand? entity with
      | none => .error state
      | some more => feed step state more
termination_by (s.own, deepest - s.depth, s.chars.length)
decreasing_by
  · have := next?_lessens ‹s.next? = _›
    simp only [Prod.lex_def]
    omega
  · have := next?_lessens ‹s.next? = _›
    simp only [Prod.lex_def]
    rcases expand?_lessens ‹rest.expand? entity = _› with rfl | _ <;> omega

end Source

end Roadbook.Xml
