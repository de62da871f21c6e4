import Roadbook.Text.Xml.Value

/-!
# The declaration of an XML document

A document may open with a declaration, which gives the version of XML and perhaps an encoding. Of
an encoding that leaves out or adds something at the end of a known name, as much is looked at as
the two have in common.
-/

namespace Roadbook.Xml

inductive Encoding where
  | utf8
  /-- One byte for each character. -/
  | latin1
  | ascii
  | utf16
  deriving DecidableEq, Repr

namespace Encoding

def names : List (String × Encoding) :=
  [("utf-8", utf8), ("utf8", utf8), ("iso-8859-1", latin1), ("latin1", latin1), ("utf-16", utf16),
    ("utf16", utf16), ("ascii", ascii), ("us-ascii", ascii)]

/-- Whether two names agree as far as both of them go, in whichever case they are. -/
def agree (name given : List Char) : Bool := (name.zip given).all fun (c, d) => c = d.toLower

def ofName? (given : List Char) : Option Encoding :=
  (names.find? fun n => agree n.1.toList given).map (·.2)

/-- A text that was taken for UTF-8, in another encoding; what is no ASCII ends an ASCII text. A
text that is marked as UTF-8 is in no other encoding. -/
def decode? (marked : Bool) (cs : List Char) : Encoding → Option (List Char)
  | utf8 => some cs
  | latin1 =>
    if marked then none
    else some ((String.ofList cs).toUTF8.toList.map fun b => Char.ofNat b.toNat)
  | ascii => if marked then none else some (cs.takeWhile fun c => c.toNat < 128)
  | utf16 => none

end Encoding

structure Declaration where
  version : Version
  encoding : Encoding

namespace Declaration

def standard : Declaration := ⟨.v10, .utf8⟩

/-- The parts of a declaration. -/
inductive Item where
  | version
  | encoding
  /-- Whether the document refers to no other one. -/
  | standalone
  deriving DecidableEq, Repr

namespace Item

def initial : Item → Char
  | version => 'v'
  | encoding => 'e'
  | standalone => 's'

/-- The name after its first character. -/
def remainder : Item → String
  | version => "ersion"
  | encoding => "ncoding"
  | standalone => "tandalone"

/-- The parts that may come after a part. -/
def followers : Item → List Item
  | version => [encoding, standalone]
  | encoding => [standalone]
  | standalone => []

end Item

def set? (d : Declaration) (item : Item) (value : List Char) : Option Declaration :=
  match item with
  | .version =>
    if value = ['1', '.', '0'] then some { d with version := .v10 }
    else if value = ['1', '.', '1'] then some { d with version := .v11 }
    else none
  | .encoding => (Encoding.ofName? value).map fun e => { d with encoding := e }
  | .standalone => if value = ['y', 'e', 's'] || value = ['n', 'o'] then some d else none

/-- Where in the declaration the reader is. -/
inductive Part where
  /-- Before one of some items or the end. -/
  | before (items : List Item) (mayEnd : Bool)
  | name (item : Item) (reversed : List Char)
  | afterName (item : Item)
  | value (item : Item) (value : Value)
  | after (item : Item)

/-- Reads a declaration after its name and a blank. -/
def step (state : Declaration × Part) (t : Token) :
    Option (Turn (Declaration × Part) Declaration) :=
  let (d, part) := state
  match part, t with
  | .before items mayEnd, .char c =>
    if isBlank c then some (.more (d, .before items mayEnd))
    else (items.find? fun item => item.initial = c).map fun item => .more (d, .name item [])
  | .before _ true, .instructionEnd | .after _, .instructionEnd => some (.done d)
  | .name item reversed, _ => do
    (← Name.step [.equals] reversed t).within (fun reversed => (d, .name item reversed))
      fun (n, last) =>
        if n.base != item.remainder.toList then none
        else if last = .equals then some (.more (d, .value item .empty))
        else some (.more (d, .afterName item))
  | .afterName item, .equals => some (.more (d, .value item .empty))
  | .afterName _, _ => if t.isBlank then some (.more state) else none
  | .value item x, _ => do
    (← x.step ⟨d.version, []⟩ t).within (fun x => (d, .value item x))
      fun value => (d.set? item value).map fun d => .more (d, .after item)
  | .after item, _ => if t.isBlank then some (.more (d, .before item.followers true)) else none
  | _, _ => none

/-- The declaration that opens a document, and the rest of the document. -/
def read? (cs : List Char) : Option (Declaration × List Char) :=
  match after? ['<', '?', 'x', 'm', 'l'] cs with
  | some (c :: rest) =>
    if isBlank c then
      match Source.feed step (standard, .before [.version] false)
          ⟨rest, 0, 0, ⟨.instruction, false⟩⟩ with
      | .ok (d, s) => some (d, s.chars)
      | .error _ => none
    else some (standard, cs)
  | _ => some (standard, cs)

end Declaration

end Roadbook.Xml
