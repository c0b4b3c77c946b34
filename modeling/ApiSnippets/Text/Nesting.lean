import ApiSnippets.Text.Cut
/-!
# Cutting outside parentheses and quotes

A scanner that knows how many parentheses are open and whether it is inside
single quotes, and the cut of a text at the separators it meets outside both.
Two dialects differ in one point: whether a quote counts everywhere or only
inside parentheses.
-/

namespace ApiSnippets

namespace Text

/-- Where a scanner stands. -/
structure Nesting where
  depth : Nat
  quoted : Bool
  deriving DecidableEq, Repr

namespace Nesting

/-- Outside of everything. -/
def outside : Nesting := ⟨0, false⟩

/-- Whether a separator cuts here. -/
def isOutside (n : Nesting) : Bool :=
  n.depth == 0 && !n.quoted

/-- The scanner after a character. In `strict` dialects a quote outside
parentheses is a character like any other. -/
def step (strict : Bool) (n : Nesting) (c : Char) : Nesting :=
  if c = '\'' ∧ (strict = false ∨ 0 < n.depth) then { n with quoted := !n.quoted }
  else if n.quoted then n
  else if c = '(' then { n with depth := n.depth + 1 }
  else if c = ')' then { n with depth := n.depth - 1 }
  else n

end Nesting

/-- A character put in front of the first piece. -/
def prepend (c : Char) : List (List Char) → List (List Char)
  | [] => [[c]]
  | piece :: more => (c :: piece) :: more

/-- The pieces between the separators met outside of everything; always at
least one. -/
def cutOutside (strict : Bool) (sep : Char) : Nesting → List Char → List (List Char)
  | _, [] => [[]]
  | n, c :: cs =>
    if c = sep ∧ n.isOutside then [] :: cutOutside strict sep n cs
    else prepend c (cutOutside strict sep (n.step strict c) cs)

end Text

end ApiSnippets
