/-!
# Characters of XML

Which characters are blanks, which make names, and which may occur at all. The last point depends on
the version of XML that a document is in.
-/

namespace Roadbook.Xml

inductive Version where
  | v10
  | v11
  deriving DecidableEq, Repr

def isBlank (c : Char) : Bool := c = ' ' ∨ c = '\t' ∨ c = '\n' ∨ c = '\x0d'

def isIn (ranges : List (Nat × Nat)) (c : Char) : Bool :=
  ranges.any fun (low, high) => low ≤ c.toNat && c.toNat ≤ high

/-- The characters with which a name starts, as ranges of code points. -/
def startRanges : List (Nat × Nat) :=
  [(0x3A, 0x3A), (0x41, 0x5A), (0x5F, 0x5F), (0x61, 0x7A), (0xC0, 0xD6), (0xD8, 0xF6),
    (0xF8, 0x2FF), (0x370, 0x37D), (0x37F, 0x1FFF), (0x200C, 0x200D), (0x2070, 0x218F),
    (0x2C00, 0x2FEF), (0x3001, 0xD7FF), (0xF900, 0xFDCF), (0xFDF0, 0xFFFD), (0x10000, 0xEFFFF)]

/-- The further characters of a name. -/
def innerRanges : List (Nat × Nat) :=
  [(0x2D, 0x2E), (0x30, 0x39), (0xB7, 0xB7), (0x300, 0x36F), (0x203F, 0x2040)]

def isStartChar (c : Char) : Bool := isIn startRanges c

def isNameChar (c : Char) : Bool := isIn startRanges c || isIn innerRanges c

/-- Whether a character may come after some of a name. -/
def continuesName (soFar : List Char) (c : Char) : Bool :=
  if soFar.isEmpty then isStartChar c else isNameChar c

/-- The controls that version 1.1 admits in comments and references but not in text. -/
def controlRanges : List (Nat × Nat) :=
  [(0x01, 0x08), (0x0B, 0x0C), (0x0E, 0x1F), (0x7F, 0x84), (0x86, 0x9F)]

/-- The characters that may occur somewhere. -/
def Version.admits (v : Version) (c : Char) : Bool :=
  c.toNat != 0xFFFE && c.toNat != 0xFFFF &&
    (match v with
      | v10 => isBlank c || ' ' ≤ c
      | v11 => c != '\x00')

/-- The characters that may occur in text and in the values of attributes. -/
def Version.admitsInText (v : Version) (c : Char) : Bool :=
  v.admits c && (v = v10 || !isIn controlRanges c)

end Roadbook.Xml
