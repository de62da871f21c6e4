import Roadbook.Text.Xml.Basic
import Roadbook.Text.Xml.Declaration
import Roadbook.Text.Xml.Doctype
import Roadbook.Text.Xml.Tag

/-!
# Reading XML

`Xml.read` reads the root element of a document, up to the first fault if there is one. Comments
leave no trace; what follows the root element is not looked at.
-/

namespace Roadbook.Xml

/-- An element whose end has not been reached. -/
structure Opened where
  tag : Tag
  /-- The prefixes that are declared in it. -/
  scopes : List (List Char)
  /-- Its children so far, the last one first. -/
  reversed : List Xml

/-- Where in a document the reader is. What has been read of a name is in reverse. -/
inductive Part where
  | content
  | reference (reversed : List Char)
  | comment
  | cdata
  | instructionName (reversed : List Char)
  | instruction
  | doctype (d : Doctype)
  | opening (tag : OpeningTag)
  | closing (reversed : List Char)
  | afterClosing (name : Name)

structure Reader where
  prolog : Prolog
  /-- Whether there has been a document type. -/
  hasDoctype : Bool
  /-- The elements around, the innermost one first. -/
  opened : List Opened
  /-- The text since the last markup, in reverse. -/
  reversed : List Char
  part : Part

namespace Reader

def start (version : Version) : Reader := ⟨⟨version, []⟩, false, [], [], .content⟩

def goTo (r : Reader) (part : Part) : Option (Turn Reader Xml) :=
  some (.more { r with part := part })

/-- Text stands in elements only. -/
def push (r : Reader) (cs : List Char) : Option (Turn Reader Xml) :=
  if r.opened.isEmpty then none
  else some (.more { r with reversed := cs.reverse ++ r.reversed, part := .content })

/-- Adds a node to the innermost element; without one the node is the root. -/
def add (r : Reader) (node : Xml) : Turn Reader Xml :=
  match r.opened with
  | [] => .done node
  | e :: es =>
    .more { r with opened := { e with reversed := node :: e.reversed } :: es, part := .content }

/-- Makes a node of the text before markup. -/
def flush (r : Reader) : Reader :=
  match r.opened, r.reversed with
  | e :: es, _ :: _ =>
    let node := text (String.ofList r.reversed.reverse)
    { r with opened := { e with reversed := node :: e.reversed } :: es, reversed := [] }
  | _, _ => r

def contentStep (r : Reader) (t : Token) : Option (Turn Reader Xml) :=
  match t with
  | .char c =>
    if r.opened.isEmpty && isBlank c then some (.more r)
    else if r.prolog.version.admitsInText c then r.push [c]
    else none
  | .tagEnd | .emptyEnd | .equals | .quote _ | .referenceEnd | .instructionEnd => r.push t.chars
  | .referenceStart => if r.opened.isEmpty then none else r.goTo (.reference [])
  | .cdataStart => if r.opened.isEmpty then none else r.goTo .cdata
  | .commentStart => r.goTo .comment
  | .instructionStart => r.flush.goTo (.instructionName [])
  | .doctypeStart =>
    if r.hasDoctype || !r.opened.isEmpty then none
    else { r with hasDoctype := true }.goTo (.doctype ⟨r.prolog, .outside⟩)
  | .tagStart => r.flush.goTo (.opening (.name []))
  | .closingStart | .slash => if r.opened.isEmpty then none else r.flush.goTo (.closing [])
  | _ => none

/-- The turn at the end of an opening tag, which may be the end of the element. -/
def openTag? (r : Reader) (tag : Tag) (ended : Bool) : Option (Turn Reader Xml) := do
  let outer := match r.opened with
    | e :: _ => e.scopes
    | [] => [predeclared]
  let scopes ← tag.scopes? outer
  if ended then return r.add (tag.toElement [])
  else return .more { r with opened := ⟨tag, scopes, []⟩ :: r.opened, part := .content }

/-- The turn at the end of a closing tag, which has the name of the opening one. -/
def closeTag? (r : Reader) (name : Name) : Option (Turn Reader Xml) :=
  match r.opened with
  | e :: es =>
    if e.tag.name = name then
      some ({ r with opened := es }.add (e.tag.toElement e.reversed.reverse))
    else none
  | [] => none

/-- Reads the name of an instruction, which no other than the declaration of a document has. -/
def instructionNameStep (r : Reader) (reversed : List Char) (t : Token) :
    Option (Turn Reader Xml) :=
  let isDeclaration := reversed.reverse.map Char.toLower = predeclared
  match t with
  | .char c =>
    if continuesName reversed c then r.goTo (.instructionName (c :: reversed))
    else if isBlank c && !isDeclaration then r.goTo .instruction
    else none
  | .instructionEnd => if reversed.isEmpty || isDeclaration then none else r.goTo .content
  | _ => none

def step (r : Reader) (t : Token) : Option (Turn Reader Xml) :=
  match r.part, t with
  | .content, _ => r.contentStep t
  | .reference reversed, _ => do
    (← referenceStep reversed t).within
      (fun reversed => { r with part := .reference reversed })
      fun name => do
        match ← r.prolog.meaning? name with
        | .char c => r.push [c]
        | .entity cs => return .expand { r with part := .content } cs
  | .comment, .commentEnd | .cdata, .cdataEnd | .instruction, .instructionEnd => r.goTo .content
  | .comment, .char c | .instruction, .char c =>
    if r.prolog.version.admits c then some (.more r) else none
  | .instruction, _ => some (.more r)
  | .cdata, .char c =>
    if r.prolog.version.admits c then some (.more { r with reversed := c :: r.reversed }) else none
  | .instructionName reversed, _ => r.instructionNameStep reversed t
  | .doctype d, _ => do
    (← d.step t).within (fun d => { r with part := .doctype d })
      fun prolog => { r with prolog := prolog }.goTo .content
  | .opening tag, _ => do
    (← tag.step r.prolog t).within (fun tag => { r with part := .opening tag })
      fun (tag, ended) => r.openTag? tag ended
  | .closing reversed, _ => do
    (← Name.step [.tagEnd] reversed t).within (fun reversed => { r with part := .closing reversed })
      fun (name, last) => if last = .tagEnd then r.closeTag? name else r.goTo (.afterClosing name)
  | .afterClosing name, .tagEnd => r.closeTag? name
  | .afterClosing _, _ => if t.isBlank then some (.more r) else none
  | _, _ => none

/-- The document when it is at fault at this point: all elements end here. -/
def broken (r : Reader) : Xml :=
  r.opened.foldl (fun node e => e.tag.toElement (node :: e.reversed).reverse) fault

end Reader

/-- The root element of a document. -/
def read (document : String) : Xml :=
  let cs := document.toList
  let marked := cs.head? = some '\uFEFF'
  match Declaration.read? (if marked then cs.tail else cs) with
  | none => fault
  | some (d, rest) =>
    match d.encoding.decode? marked rest with
    | none => fault
    | some cs =>
      match Source.feed Reader.step (.start d.version) ⟨cs, 0, 0, ⟨.content, false⟩⟩ with
      | .ok (root, _) => root
      | .error r => r.broken

end Roadbook.Xml
