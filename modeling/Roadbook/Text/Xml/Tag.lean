import Roadbook.Text.Xml.Basic
import Roadbook.Text.Xml.Value

/-!
# Tags

An opening tag has a name and attributes. No attribute may stand in it twice, except those that
declare namespaces, which are not kept with the others; every prefix has to be declared.
-/

namespace Roadbook.Xml

structure Tag where
  name : Name
  /-- The attributes that declare no namespace, the last one first. -/
  reversed : List (Name × List Char)
  /-- The prefixes that are declared. -/
  declared : List (List Char)

namespace Tag

/-- A tag with another attribute, if its name and its value may stand together. -/
def add? (tag : Tag) (name : Name) (value : List Char) : Option Tag :=
  if name.scope = some declaring then
    if name.base = declaring || (name.base = predeclared && value != predeclaredAddress) ||
        value.isEmpty then none
    else some { tag with declared := name.base :: tag.declared }
  else if name = ⟨none, declaring⟩ then
    if [declaring, predeclared, declaringAddress, predeclaredAddress].contains value then none
    else some tag
  else some { tag with reversed := (name, value) :: tag.reversed }

/-- The prefixes inside the element, if all those of the tag are among them. -/
def scopes? (outer : List (List Char)) (tag : Tag) : Option (List (List Char)) :=
  let scopes := tag.declared ++ outer
  if tag.name.isBound scopes && tag.reversed.all fun a => a.1.isBound scopes then some scopes
  else none

def toElement (tag : Tag) (children : List Xml) : Xml :=
  .element (String.ofList tag.name.base)
    (tag.reversed.reverse.map fun (n, v) => (String.ofList n.base, String.ofList v)) children

end Tag

/-- Where in an opening tag the reader is. What has been read of a name is in reverse. -/
inductive OpeningTag where
  | name (reversed : List Char)
  /-- After a blank. -/
  | inside (tag : Tag)
  | attributeName (tag : Tag) (reversed : List Char)
  | afterName (tag : Tag) (name : Name)
  | value (tag : Tag) (name : Name) (value : Value)
  | afterValue (tag : Tag)

namespace OpeningTag

/-- The turn at a blank or an end of the tag; the answer is whether that is the end of the element
too. -/
def atEnd? (tag : Tag) : Token → Option (Turn OpeningTag (Tag × Bool))
  | .tagEnd => some (.done (tag, false))
  | .emptyEnd => some (.done (tag, true))
  | t => if t.isBlank then some (.more (inside tag)) else none

/-- Reads an opening tag after its bracket. -/
def step (p : Prolog) (state : OpeningTag) (t : Token) : Option (Turn OpeningTag (Tag × Bool)) :=
  match state, t with
  | name reversed, _ => do
    (← Name.step [.tagEnd, .emptyEnd] reversed t).within name
      fun (n, last) => if n.isReserved then none else atEnd? ⟨n, [], []⟩ last
  | inside tag, .char c =>
    if isStartChar c then some (.more (attributeName tag [c])) else atEnd? tag t
  | inside tag, _ | afterValue tag, _ => atEnd? tag t
  | attributeName tag reversed, _ => do
    (← Name.step [.equals] reversed t).within (attributeName tag)
      fun (n, last) =>
        if tag.reversed.any fun a => a.1 = n then none
        else if last = .equals then some (.more (value tag n .empty))
        else some (.more (afterName tag n))
  | afterName tag n, .equals => some (.more (value tag n .empty))
  | afterName _ _, _ => if t.isBlank then some (.more state) else none
  | value tag n x, _ => do
    (← x.step p t).within (value tag n)
      fun cs => (tag.add? n cs).map fun tag => .more (afterValue tag)

end OpeningTag

end Roadbook.Xml
