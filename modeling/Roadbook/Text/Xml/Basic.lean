/-!
# XML elements

An element has a name, attributes and children; names stand here without the prefix that says which
namespace they are from. A text is never empty and goes as far as it can: two texts stand side by
side only where an instruction stood between them. A document that is not well-formed can still be
read up to its first fault: a node stands for that, as the last one in every element around it.
-/

namespace Roadbook

inductive Xml where
  | element (name : String) (attributes : List (String × String)) (children : List Xml)
  | text (content : String)
  /-- The document is at fault here, and nothing is known of what follows. -/
  | fault
  deriving Repr

namespace Xml

/-- The first value that some attributes give to a name. -/
def valueOf? (name : String) (attributes : List (String × String)) : Option String :=
  (attributes.find? fun a => a.1 == name).map (·.2)

/-- The last text among some nodes, which are all texts. -/
def lastText? : List Xml → Option (Option String)
  | [] => some none
  | text s :: nodes => (lastText? nodes).map fun later => some (later.getD s)
  | _ => none

mutual

/-- Whether there is no fault at a node or in it. -/
def isWhole : Xml → Bool
  | element _ _ children => areWhole children
  | text _ => true
  | fault => false

def areWhole : List Xml → Bool
  | [] => true
  | node :: nodes => node.isWhole && areWhole nodes

end

end Xml

end Roadbook
