/-!
# Blanks and lines

The characters of the Unicode property White_Space, the text without those at its ends, and the
lines of a text.
-/

namespace Roadbook

/-- White_Space, as ranges of code points. -/
def blankRanges : List (Nat × Nat) :=
  [(0x09, 0x0D), (0x20, 0x20), (0x85, 0x85), (0xA0, 0xA0), (0x1680, 0x1680), (0x2000, 0x200A),
    (0x2028, 0x2029), (0x202F, 0x202F), (0x205F, 0x205F), (0x3000, 0x3000)]

def isBlank (c : Char) : Bool :=
  blankRanges.any fun (low, high) => low ≤ c.toNat && c.toNat ≤ high

/-- A text without the blanks at its two ends. -/
def trimmed (cs : List Char) : List Char :=
  ((cs.dropWhile isBlank).reverse.dropWhile isBlank).reverse

/-- A line without the carriage return that may end it. -/
def withoutReturn (cs : List Char) : List Char :=
  if cs.getLast? = some '\x0d' then cs.dropLast else cs

/-- The parts of a text before, between and after its separators. -/
def splitAt (separator : Char) : List Char → List (List Char)
  | [] => [[]]
  | c :: cs =>
    if c = separator then [] :: splitAt separator cs
    else match splitAt separator cs with
      | part :: parts => (c :: part) :: parts
      | [] => [[c]]

/-- The lines of a text, each of which ends with a line feed, except perhaps the last one. A
carriage return before the line feed is not part of the line. -/
def linesOf (cs : List Char) : List (List Char) :=
  let parts := splitAt '\n' cs
  parts.dropLast.map withoutReturn ++ (parts.getLast?.filter (!·.isEmpty)).toList

end Roadbook
