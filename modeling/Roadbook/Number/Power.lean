/-!
# Powers of two and of ten

The sizes of binary and decimal numbers.
-/

namespace Roadbook

def twoTo (n : Nat) : Nat := Nat.pow 2 n

def tenTo (n : Nat) : Nat := Nat.pow 10 n

end Roadbook
