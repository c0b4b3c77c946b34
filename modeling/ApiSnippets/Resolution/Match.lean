import ApiSnippets.Schema.Index
/-!
# Matching a segment of a request

Which child of a node of the tree a segment of a request path stands for. The
template itself is preferred to every other spelling, and a placeholder comes
last:

* the template as it is, then in another letter case;
* a call, by its short name, preferring the overload whose argument names
  agree best;
* a namespaced template, by its last component;
* a type cast, which has no node of its own;
* a placeholder.
-/

namespace ApiSnippets

namespace PathNode

/-! ## Calls -/

/-- The names of the arguments of a call, in lower case and without
repetitions. -/
def argumentNames (segment : String) : List String :=
  ((Entries.keys (Call.ofSegment segment).arguments).map Text.lower).eraseDups

/-- How well a template agrees with the arguments of a request: by the number
of common names, then by the number of names it has beyond them. -/
def agreesBetter (wanted : List String) (a b : PathNode) : Bool :=
  let common (n : PathNode) := ((argumentNames n.segment).filter wanted.contains).length
  let size (n : PathNode) := (argumentNames n.segment).length
  decide (common b < common a) || (common a == common b && decide (size a < size b))

/-- The first element than which no other is better. -/
def firstBest {α : Type} (better : α → α → Bool) : List α → Option α
  | [] => none
  | x :: xs =>
    match firstBest better xs with
    | none => some x
    | some y => if better y x then some y else some x

/-- The last component of a call's name. -/
def callName (segment : String) : String :=
  Text.lastComponent (Call.ofSegment segment).name

/-- The child for a call: among the templates with its name, the one whose
arguments agree best. -/
def matchCall? (n : PathNode) (segment : String) : Option PathNode :=
  firstBest (agreesBetter (argumentNames segment))
    (n.children.filter fun c =>
      c.hasArguments && Text.sameLetters (callName c.segment) (callName segment))

/-! ## All children but placeholders -/

/-- The child with a segment in whatever letter case. -/
def matchLetters? (n : PathNode) (segment : String) : Option PathNode :=
  n.children.find? fun c => Text.sameLetters c.segment segment

/-- The child whose namespaced segment ends in a name. -/
def matchShort? (n : PathNode) (name : String) : Option PathNode :=
  n.children.find? fun c =>
    Text.hasChar '.' c.segment && !c.hasArguments &&
      Text.sameLetters (Text.lastComponent c.segment) name

/-- The child that a segment names. -/
def match? (n : PathNode) (segment : String) : Option PathNode :=
  (n.child? segment).or <| (n.matchLetters? segment).or <|
    if Text.hasChar '(' segment then n.matchCall? segment else n.matchShort? segment

/-- The first placeholder among the children. -/
def placeholder? (n : PathNode) : Option PathNode :=
  n.children.find? isParameter

end PathNode

namespace Index

/-- The type that a segment casts to, when it is the name of one. -/
def typeCast? (ix : Index) (segment : String) : Outcome (Option String) :=
  if Text.hasChar '.' segment && !Text.hasChar '(' segment then do
    let t ← ix.describeType segment none
    pure (t.map (·.name))
  else .ok none

end Index

end ApiSnippets
