import Roadbook.Text.Xml.Value

/-!
# Document types

Of a document type only its entities matter: those for text, and those for the document type itself,
whose names are kept with the percent sign that refers to them. Of two declarations of an entity the
first one counts, and an entity that is kept elsewhere is taken for an empty one.
-/

namespace Roadbook.Xml

namespace Doctype

/-- An entity whose text is being read, in reverse. -/
structure Definition where
  name : List Char
  quote : Quote
  reversed : List Char

def Definition.push (d : Definition) (cs : List Char) : Definition :=
  { d with reversed := cs.reverse ++ d.reversed }

/-- Where in the document type the reader is. What has been read of a word or a name is in
reverse. -/
inductive Part where
  | outside
  | literal (q : Quote)
  | comment
  /-- In a reference to an entity for the document type. -/
  | reference (reversed : List Char)
  /-- In the word that says what is declared. -/
  | keyword (reversed : List Char)
  | beforeName
  /-- After the percent sign before the name. -/
  | afterSign
  | name (reversed : List Char)
  | beforeText (name : List Char)
  | text (d : Definition)
  | afterAmpersand (d : Definition)
  | number (d : Definition) (reversed : List Char)
  | referenceInText (d : Definition) (reversed : List Char)
  /-- In what is not looked at of a declaration. -/
  | remainder

end Doctype

structure Doctype where
  prolog : Prolog
  part : Doctype.Part

namespace Doctype

def goTo (d : Doctype) (part : Part) : Option (Turn Doctype Prolog) :=
  some (.more { d with part := part })

/-- Adds an entity, unless there is one of its name. -/
def declare (d : Doctype) (name cs : List Char) : Doctype :=
  if (d.prolog.entities.lookup name).isSome then d
  else { d with prolog := { d.prolog with entities := (name, cs) :: d.prolog.entities } }

/-- What a declaration has after the word that says what is declared. -/
def afterKeyword? (word : List Char) : Option Part :=
  match String.ofList word with
  | "ENTITY" => some .beforeName
  | "NOTATION" | "ELEMENT" | "ATTLIST" => some .remainder
  | _ => none

/-- Reads the text of an entity. References to characters are replaced, as are those to entities for
the document type; others stay. -/
def textStep (d : Doctype) (x : Definition) (t : Token) : Option (Turn Doctype Prolog) :=
  match t with
  | .char '&' | .referenceStart => d.goTo (.afterAmpersand x)
  | .char '%' => d.goTo (.referenceInText x ['%'])
  | .char c => if d.prolog.version.admits c then d.goTo (.text (x.push [c])) else none
  | .quote q =>
    if q = x.quote then (d.declare x.name x.reversed.reverse).goTo .remainder
    else d.goTo (.text (x.push t.chars))
  | _ => none

/-- Reads a document type after its opening; the end of it is that of its declarations too. -/
def step (d : Doctype) (t : Token) : Option (Turn Doctype Prolog) :=
  match d.part, t with
  | .outside, .tagEnd => some (.done d.prolog)
  | .outside, .markupStart => d.goTo (.keyword [])
  | .outside, .char '%' => d.goTo (.reference ['%'])
  | .outside, .commentStart => d.goTo .comment
  | .outside, .quote q => d.goTo (.literal q)
  | .outside, .cdataStart | .outside, .cdataEnd => none
  | .outside, _ => d.goTo .outside
  | .literal q, _ => d.goTo (if t = .quote q then .outside else .literal q)
  | .comment, _ => d.goTo (if t = .commentEnd then .outside else .comment)
  | .reference reversed, .referenceEnd =>
    (d.prolog.entities.lookup reversed.reverse).map fun cs =>
      .expand { d with part := .outside } cs
  | .reference reversed, .char c =>
    if isNameChar c then d.goTo (.reference (c :: reversed)) else none
  | .keyword reversed, .char c =>
    if 'A' ≤ c ∧ c ≤ 'Z' then d.goTo (.keyword (c :: reversed))
    else if isBlank c then (afterKeyword? reversed.reverse).bind d.goTo
    else none
  | .beforeName, .char c =>
    if isBlank c then d.goTo .beforeName
    else if c = '%' then d.goTo .afterSign
    else if isStartChar c then d.goTo (.name [c])
    else none
  | .afterSign, .char c =>
    if isBlank c then d.goTo .afterSign
    else if isStartChar c then d.goTo (.name [c, '%'])
    else none
  | .name reversed, .char c =>
    if isBlank c then d.goTo (.beforeText reversed.reverse)
    else if isNameChar c then d.goTo (.name (c :: reversed))
    else none
  | .beforeText name, .char c =>
    if isBlank c then d.goTo (.beforeText name)
    else if c = 'S' ∨ c = 'P' then (d.declare name []).goTo .remainder
    else none
  | .beforeText name, .quote q => d.goTo (.text ⟨name, q, []⟩)
  | .text x, _ => d.textStep x t
  | .afterAmpersand x, .char c =>
    if c = '#' then d.goTo (.number x [])
    else if d.prolog.version.admits c then d.goTo (.text (x.push ['&', c]))
    else none
  | .number x reversed, .char c =>
    if c = ';' then
      (numbered? d.prolog.version reversed.reverse).bind fun r => d.goTo (.text (x.push [r]))
    else d.goTo (.number x (c :: reversed))
  | .referenceInText x reversed, .char c =>
    if c = ';' then
      (d.prolog.entities.lookup reversed.reverse).bind fun cs => d.goTo (.text (x.push cs))
    else if isNameChar c then d.goTo (.referenceInText x (c :: reversed))
    else none
  | .remainder, _ => d.goTo (if t = .tagEnd then .outside else .remainder)
  | _, _ => none

end Doctype

end Roadbook.Xml
