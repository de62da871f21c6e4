import Roadbook.Number.Power
import Roadbook.Text.Blank
import Roadbook.Text.Xml.Source

/-!
# Names of XML

A name may start with a prefix and a colon; prefixes stand for namespaces, and two of them are
reserved.
-/

namespace Roadbook.Xml

structure Name where
  scope : Option (List Char)
  base : List Char
  deriving DecidableEq, Repr

/-- The prefix with which prefixes are declared. -/
def declaring : List Char := ['x', 'm', 'l', 'n', 's']

/-- The prefix that needs no declaration. -/
def predeclared : List Char := ['x', 'm', 'l']

/-- The address of a namespace, from the parts of its path. -/
def address (path : List String) : List Char :=
  ("/".intercalate (["http:", "", "www.w3.org"] ++ path)).toList

/-- The namespace of the prefix that needs no declaration. -/
def predeclaredAddress : List Char := address ["XML", "1998", "namespace"]

/-- The namespace of the prefix with which prefixes are declared. -/
def declaringAddress : List Char := address ["2000", "xmlns", ""]

namespace Name

/-- A name with more bytes than these before its last character is too long. -/
def mostBytes : Nat := twoTo 18

def ofChars? (cs : List Char) : Option Name :=
  if mostBytes < (String.ofList cs.dropLast).utf8ByteSize then none
  else match splitAt ':' cs with
    | [base] => if base.isEmpty then none else some ⟨none, base⟩
    | [scope, base] => if scope.isEmpty || base.isEmpty then none else some ⟨some scope, base⟩
    | _ => none

/-- Whether the name of an element has a prefix that no element may have. -/
def isReserved (n : Name) : Bool := n.scope = some declaring || n.scope = some predeclared

/-- Whether a name has no prefix, or one of some that are declared. -/
def isBound (scopes : List (List Char)) (n : Name) : Bool := n.scope.all scopes.contains

/-- Reads a name, which ends with a blank or one of some tokens. The answer has that end too; what
has been read so far is in reverse. -/
def step (ends : List Token) (reversed : List Char) (t : Token) :
    Option (Turn (List Char) (Name × Token)) :=
  match t with
  | .char c =>
    if isBlank c then (ofChars? reversed.reverse).map fun n => .done (n, t)
    else if continuesName reversed c then some (.more (c :: reversed))
    else none
  | _ => if ends.contains t then (ofChars? reversed.reverse).map fun n => .done (n, t) else none

end Name

end Roadbook.Xml
