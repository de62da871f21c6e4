import Roadbook.Number.Decimal
import Roadbook.Text.Json.Basic

/-!
# Writing JSON

`Json.compact` writes a value without any blanks; `Json.spread` writes an object of strings with one
member on each line, indented by two. In strings only quotes, backslashes and control characters are
escaped. What is broken in a value that was read is written as null, and a key that is missing as an
empty one.
-/

namespace Roadbook.Json

def hexDigits : List Char :=
  ['0', '1', '2', '3', '4', '5', '6', '7', '8', '9', 'a', 'b', 'c', 'd', 'e', 'f']

def hexChar (n : Nat) : Char := hexDigits.getD n '0'

/-- A character as it stands in a string. -/
def escaped (c : Char) : List Char :=
  if c = '"' then ['\\', '"']
  else if c = '\\' then ['\\', '\\']
  else if c = '\x08' then ['\\', 'b']
  else if c = '\x0c' then ['\\', 'f']
  else if c = '\n' then ['\\', 'n']
  else if c = '\x0d' then ['\\', 'r']
  else if c = '\t' then ['\\', 't']
  else if c < ' ' then ['\\', 'u', '0', '0', hexChar (c.toNat / 16), hexChar (c.toNat % 16)]
  else [c]

def quoted (s : String) : List Char := '"' :: s.toList.flatMap escaped ++ ['"']

/-- The texts with a separator between each two of them. -/
def separated (separator : List Char) : List (List Char) → List Char
  | [] => []
  | [t] => t
  | t :: ts => t ++ separator ++ separated separator ts

mutual

def chars : Json → List Char
  | null | unpaired | broken _ => ['n', 'u', 'l', 'l']
  | bool true => ['t', 'r', 'u', 'e']
  | bool false => ['f', 'a', 'l', 's', 'e']
  | int n => (toString n).toList
  | real x => (Decimal.shortest x).toList
  | string s => quoted s
  | array items _ => '[' :: separated [','] (itemsChars items) ++ [']']
  | object members _ => '\x7b' :: separated [','] (membersChars members) ++ ['\x7d']

def itemsChars : List Json → List (List Char)
  | [] => []
  | j :: js => chars j :: itemsChars js

def membersChars : List (Option String × Json) → List (List Char)
  | [] => []
  | (key, j) :: js => (quoted (key.getD "") ++ ':' :: chars j) :: membersChars js

end

def compact (j : Json) : String := String.ofList (chars j)

/-- An object of strings on several lines. -/
def spread (members : List (String × String)) : String :=
  let lines := members.map fun (key, value) =>
    ['\n', ' ', ' '] ++ quoted key ++ [':', ' '] ++ quoted value
  String.ofList (match lines with
    | [] => ['\x7b', '\x7d']
    | _ => '\x7b' :: separated [','] lines ++ ['\n', '\x7d'])

end Roadbook.Json
