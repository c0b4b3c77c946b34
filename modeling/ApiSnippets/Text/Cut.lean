import ApiSnippets.Text.Class
/-!
# Cutting texts

Trimming, splitting and replacing, on sequences of characters; at the end,
the forms of them that take and give whole texts.
-/

namespace ApiSnippets

namespace Text

/-! ## Trimming -/

/-- The characters without those of a class at their end. -/
def trimEnd (p : Char → Bool) (cs : List Char) : List Char :=
  (cs.reverse.dropWhile p).reverse

/-- The characters without those of a class at either end. -/
def trim (p : Char → Bool) (cs : List Char) : List Char :=
  trimEnd p (cs.dropWhile p)

/-- The characters without white space at either end. -/
def strip (cs : List Char) : List Char :=
  trim isBlank cs

/-- No character at all, or white space only. -/
def isBlankText (cs : List Char) : Bool :=
  cs.all isBlank

/-! ## Splitting -/

/-- The part before the first `c` and, when there is a `c`, the part after it. -/
def cutAt (c : Char) (cs : List Char) : List Char × Option (List Char) :=
  match cs.dropWhile (· != c) with
  | [] => (cs, none)
  | _ :: after => (cs.takeWhile (· != c), some after)

/-- The part after the last `c`, everything when there is none. -/
def afterLast (c : Char) (cs : List Char) : List Char :=
  (cs.reverse.takeWhile (· != c)).reverse

/-- The part before the last `c`, nothing when there is none. -/
def beforeLast (c : Char) (cs : List Char) : List Char :=
  ((cs.reverse.dropWhile (· != c)).drop 1).reverse

/-- The pieces between separators; always at least one. -/
def splitAll (c : Char) : List Char → List (List Char)
  | [] => [[]]
  | d :: cs =>
    if d = c then [] :: splitAll c cs
    else
      match splitAll c cs with
      | [] => [[d]]
      | piece :: more => (d :: piece) :: more

/-- The maximal runs of characters outside a class. -/
def fields (p : Char → Bool) : List Char → List (List Char)
  | [] => []
  | c :: cs =>
    if p c then fields p cs
    else
      match cs with
      | [] => [[c]]
      | d :: _ =>
        if p d then [c] :: fields p cs
        else
          match fields p cs with
          | [] => [[c]]
          | piece :: more => (c :: piece) :: more

/-- The words of a text: what white space separates. -/
def blankFields (cs : List Char) : List (List Char) :=
  fields isBlank cs

/-! ## Replacing -/

/-- Every `a` replaced by a text. -/
def replaceChar (a : Char) (new : List Char) (cs : List Char) : List Char :=
  cs.flatMap fun c => if c = a then new else [c]

/-- Every `a` followed by `b` replaced by a text, from left to right. -/
def replacePair (a b : Char) (new : List Char) : List Char → List Char
  | [] => []
  | [c] => [c]
  | c :: d :: cs =>
    if c = a ∧ d = b then new ++ replacePair a b new cs
    else c :: replacePair a b new (d :: cs)

/-! ## Repetition and joining -/

/-- The pieces with a separator between neighbours. -/
def join (sep : List Char) : List (List Char) → List Char
  | [] => []
  | [piece] => piece
  | piece :: more => piece ++ sep ++ join sep more

/-! ## Whole texts -/

/-- The text without white space at either end. -/
def stripped (s : String) : String :=
  String.ofList (strip s.toList)

/-- The part after the last dot of a dotted name. -/
def lastComponent (s : String) : String :=
  String.ofList (afterLast '.' s.toList)

/-- The part before the last dot of a dotted name. -/
def leadingComponents (s : String) : String :=
  String.ofList (beforeLast '.' s.toList)

/-- The pieces of a text between separators. -/
def pieces (c : Char) (s : String) : List String :=
  (splitAll c s.toList).map String.ofList

/-- Whether the text begins with another. -/
def hasStart (start s : String) : Bool :=
  start.toList.isPrefixOf s.toList

/-- Whether the text ends with another. -/
def hasEnd (ending s : String) : Bool :=
  ending.toList.isSuffixOf s.toList

/-- Whether some part of the characters is equal to a pattern. -/
def occursIn (pattern : List Char) : List Char → Bool
  | [] => pattern.isEmpty
  | c :: cs => pattern.isPrefixOf (c :: cs) || occursIn pattern cs

/-- Whether the text contains another. -/
def contains (part s : String) : Bool :=
  occursIn part.toList s.toList

/-- Whether the text contains a character. -/
def hasChar (c : Char) (s : String) : Bool :=
  s.toList.contains c

end Text

end ApiSnippets
