import Roadbook.Text.Xml.Character

/-!
# Tokens of XML

A document is read one token at a time, and how its characters make tokens depends on where they
stand: an equals sign is a mark in a tag and nothing but a character in a comment. `Setting.token?`
takes the token at the start of a text and `Setting.after` says how to read on. A token takes up the
characters that it is written with, and no others (`token?_eq_some`).
-/

namespace Roadbook.Xml

inductive Quote where
  | single
  | double
  deriving DecidableEq, Repr

inductive Token where
  | char (c : Char)
  | tagStart
  | closingStart
  | tagEnd
  | emptyEnd
  /-- A slash in an instruction. -/
  | slash
  | equals
  | quote (q : Quote)
  | referenceStart
  | referenceEnd
  | commentStart
  | commentEnd
  | cdataStart
  | cdataEnd
  | instructionStart
  | instructionEnd
  | doctypeStart
  /-- The start of a declaration in a document type. -/
  | markupStart
  deriving DecidableEq, Repr

namespace Token

/-- How a token is written. -/
def chars : Token → List Char
  | char c => [c]
  | tagStart => ['<']
  | closingStart => ['<', '/']
  | tagEnd => ['>']
  | emptyEnd => ['/', '>']
  | slash => ['/']
  | equals => ['=']
  | quote .single => ['\'']
  | quote .double => ['"']
  | referenceStart => ['&']
  | referenceEnd => [';']
  | commentStart => ['<', '!', '-', '-']
  | commentEnd => ['-', '-', '>']
  | cdataStart => ['<', '!', '[', 'C', 'D', 'A', 'T', 'A', '[']
  | cdataEnd => [']', ']', '>']
  | instructionStart => ['<', '?']
  | instructionEnd => ['?', '>']
  | doctypeStart => ['<', '!', 'D', 'O', 'C', 'T', 'Y', 'P', 'E']
  | markupStart => ['<', '!']

theorem length_chars_pos (t : Token) : 0 < t.chars.length := by
  cases t with
  | quote q => cases q <;> simp [chars]
  | _ => simp [chars]

def isBlank : Token → Bool
  | char c => Xml.isBlank c
  | _ => false

/-- What opens markup. Of two tokens with a common start the longer one stands first. -/
def opening : List Token :=
  [commentStart, cdataStart, doctypeStart, closingStart, instructionStart, markupStart, tagStart]

def quotes : List Token := [quote .double, quote .single]

end Token

/-- Where characters stand. -/
inductive Mode where
  /-- In text or in a tag. -/
  | content
  /-- In a document type, but not in one of its declarations. -/
  | doctype
  /-- In a declaration of a document type. -/
  | markup
  /-- Between quotes in a declaration of a document type. -/
  | quoted (q : Quote)
  | instruction
  | comment
  | cdata
  deriving DecidableEq, Repr

namespace Mode

/-- The marks of a mode; all else are characters. -/
def marks : Mode → List Token
  | content => Token.opening ++ [.emptyEnd, .cdataEnd, .tagEnd, .equals] ++ Token.quotes ++
      [.referenceStart, .referenceEnd]
  | doctype => Token.opening ++ [.tagEnd] ++ Token.quotes ++ [.referenceStart, .referenceEnd]
  | markup => [.tagEnd] ++ Token.quotes ++ [.referenceStart, .referenceEnd]
  | quoted q => [.quote q]
  | instruction => [.instructionEnd, .tagStart, .tagEnd, .slash, .equals] ++ Token.quotes ++
      [.referenceStart, .referenceEnd]
  | comment => [.commentEnd]
  | cdata => [.cdataEnd]

/-- Whether a text with no mark at its start is at fault: an opening bracket that opens nothing, as
none does in a declaration, or two hyphens in a comment. -/
def forbids (mode : Mode) (cs : List Char) : Bool :=
  match mode, cs with
  | content, '<' :: _ | doctype, '<' :: _ | markup, '<' :: _ => true
  | comment, '-' :: '-' :: _ => true
  | _, _ => false

end Mode

/-- How to read on: where the next character stands, and whether that is inside a document type. -/
structure Setting where
  mode : Mode
  inDoctype : Bool
  deriving DecidableEq, Repr

/-- The rest of a text that starts with a mark. -/
def after? : List Char → List Char → Option (List Char)
  | [], cs => some cs
  | m :: ms, c :: cs => if m = c then after? ms cs else none
  | _ :: _, [] => none

theorem after?_eq_some {mark cs rest : List Char} (h : after? mark cs = some rest) :
    cs = mark ++ rest := by
  fun_induction after? mark cs with
  | case1 cs => simpa using h
  | case2 m ms cs ih => simp [ih h]
  | case3 => simp at h
  | case4 => simp at h

namespace Setting

/-- Reading goes on in text, in a tag or in the document type. -/
def back (s : Setting) : Setting := { s with mode := if s.inDoctype then .doctype else .content }

/-- Whether a mark counts as one before the rest of a text: a tag starts with a blank or a name, and
a declaration of a document type with one of three letters. -/
def allows (s : Setting) (t : Token) (rest : List Char) : Bool :=
  match t with
  | .tagStart => s.mode = .instruction || rest.head?.any fun c => isBlank c || isNameChar c
  | .markupStart => s.inDoctype && rest.head?.any fun c => c = 'E' || c = 'A' || c = 'N'
  | _ => true

/-- A text after a mark at its start. -/
def afterMark? (s : Setting) (cs : List Char) (t : Token) : Option (Token × List Char) :=
  match after? t.chars cs with
  | some rest => if s.allows t rest then some (t, rest) else none
  | none => none

/-- The token at the start of a text, and the text after it. -/
def token? (s : Setting) : List Char → Option (Token × List Char)
  | [] => none
  | c :: cs =>
    match s.mode.marks.findSome? (s.afterMark? (c :: cs)) with
    | some found => some found
    | none => if s.mode.forbids (c :: cs) then none else some (.char c, cs)

theorem afterMark?_eq_some {s : Setting} {cs rest : List Char} {t u : Token}
    (h : s.afterMark? cs t = some (u, rest)) : cs = u.chars ++ rest := by
  unfold afterMark? at h
  split at h
  · rename_i r hr
    split at h
    · simp only [Option.some.injEq, Prod.mk.injEq] at h
      obtain ⟨rfl, rfl⟩ := h
      exact after?_eq_some hr
    · simp at h
  · simp at h

/-- A token is written with the characters that it takes up. -/
theorem token?_eq_some {s : Setting} {cs rest : List Char} {t : Token}
    (h : s.token? cs = some (t, rest)) : cs = t.chars ++ rest := by
  unfold token? at h
  split at h
  · simp at h
  · split at h
    · rename_i found hf
      obtain ⟨u, -, hu⟩ := List.exists_of_findSome?_eq_some hf
      simp only [Option.some.injEq] at h
      subst h
      exact afterMark?_eq_some hu
    · split at h
      · simp at h
      · simp only [Option.some.injEq, Prod.mk.injEq] at h
        obtain ⟨rfl, rfl⟩ := h
        rfl

/-- How to read on after a token. -/
def after (s : Setting) (t : Token) : Setting :=
  match s.mode, t with
  | .instruction, .instructionEnd | .comment, .commentEnd | .markup, .tagEnd => s.back
  | .instruction, _ | .comment, _ | .content, .tagEnd => s
  | .content, .char '/' => s.back
  | .cdata, .cdataEnd => { s with mode := .content }
  | .quoted _, .quote _ => { s with mode := .markup }
  | .markup, .quote q => { s with mode := .quoted q }
  | .doctype, .tagEnd => ⟨.content, false⟩
  | _, .commentStart => { s with mode := .comment }
  | _, .cdataStart => { s with mode := .cdata }
  | _, .instructionStart => { s with mode := .instruction }
  | _, .markupStart => { s with mode := .markup }
  | _, .doctypeStart => ⟨.doctype, true⟩
  | _, .tagStart | _, .closingStart | _, .emptyEnd | _, .cdataEnd => s.back
  | _, _ => s

end Setting

end Roadbook.Xml
