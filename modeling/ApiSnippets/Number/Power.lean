/-!
# Powers of two and ten

The powers that a double and a decimal are scaled by.
-/

namespace ApiSnippets

namespace Number

/-- A power of two. -/
def twoTo (n : Nat) : Nat := Nat.pow 2 n

/-- A power of ten. -/
def tenTo (n : Nat) : Nat := Nat.pow 10 n

end Number

end ApiSnippets
