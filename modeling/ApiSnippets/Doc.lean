import ApiSnippets.Json
import ApiSnippets.Scalar
/-!
# Document values

What an API description denotes, be it written in JSON or in YAML. A document
is richer than a JSON value: the keys of a mapping may be any scalar, there
are octet sequences and dates, sets and pairs, and a value may even be part of
itself. Every JSON value is a document (`Doc.ofJson`).

A value that is part of itself is unrolled: it is a `loop` with a number,
inside which the same loop stands again, and again, until the value is
`endless`. Reading goes through `opened`, which forgets the number; messages
need it, because they show a value inside itself by dots.
-/

namespace ApiSnippets

/-- A value of an API description. -/
inductive Doc where
  | scalar (s : Scalar)
  | list (items : List Doc)
  | map (entries : List (Scalar × Doc))
  | set (members : List Scalar)
  | pair (first second : Doc)
  /-- A value that is part of itself. Loops with one number are one value. -/
  | loop (id : Nat) (value : Doc)
  /-- What lies deeper than loops are unrolled. -/
  | endless
  deriving Inhabited

namespace Doc

/-- The null value. -/
@[match_pattern] abbrev null : Doc := .scalar .null

/-- A truth value. -/
@[match_pattern] abbrev bool (b : Bool) : Doc := .scalar (.bool b)

/-- A string. -/
@[match_pattern] abbrev text (s : String) : Doc := .scalar (.text s)

/-! ## Access -/

/-- A value as it is outside messages: of a loop what it unrolls to. -/
def opened : Doc → Doc
  | loop _ v => v
  | v => v

/-- The entry of a mapping under a string key. -/
def field? (name : String) : List (Scalar × Doc) → Option Doc
  | [] => none
  | (.text k, v) :: es => if k == name then some v else field? name es
  | _ :: es => field? name es

/-- The member of a mapping under a string key. -/
def get? (name : String) (v : Doc) : Option Doc :=
  match v.opened with
  | map es => field? name es
  | _ => none

/-- The text of a string. -/
def text? : Doc → Option String
  | text s => some s
  | _ => none

/-- The text of a string that is not empty. -/
def filledText? : Doc → Option String
  | text s => if s.isEmpty then none else some s
  | _ => none

/-- Whether a value counts as present: not null, false, zero or empty. -/
def isTruthy : Doc → Bool
  | scalar s => s.isTruthy
  | list items => !items.isEmpty
  | map es => !es.isEmpty
  | set ms => !ms.isEmpty
  | pair _ _ => true
  | loop _ v => isTruthy v
  | endless => true

/-- The name of a value's type in messages. -/
def typeName : Doc → String
  | scalar s => s.typeName
  | list _ => "list"
  | map _ => "dict"
  | set _ => "set"
  | pair _ _ => "tuple"
  | loop _ v => typeName v
  | endless => ""

/-- Whether a value is a mapping. -/
def isMap (v : Doc) : Bool :=
  match v.opened with
  | map _ => true
  | _ => false

/-- Whether a value could be a key: a scalar, or a pair of such values. -/
def isKeyLike : Doc → Bool
  | scalar _ => true
  | pair a b => isKeyLike a && isKeyLike b
  | _ => false

/-! ## Order -/

mutual

/-- Whether two values are the same scalar, or lists of the same scalars. -/
def isSame : Doc → Doc → Bool
  | scalar a, scalar b => a == b
  | list xs, list ys => areSame xs ys
  | pair a b, pair c d => isSame a c && isSame b d
  | _, _ => false

/-- Whether two lists have the same items. -/
def areSame : List Doc → List Doc → Bool
  | [], [] => true
  | x :: xs, y :: ys => isSame x y && areSame xs ys
  | _, _ => false

end

mutual

/-- Whether one of two values comes before the other or they are equal. Lists
are compared at the first place where they differ. -/
def areOrdered : Doc → Doc → Bool
  | scalar a, scalar b => a.areOrdered b
  | list xs, list ys => itemsOrdered xs ys
  | pair a b, pair c d => if isSame a c then areOrdered b d else areOrdered a c
  | set _, set _ => true
  | _, _ => false

/-- Whether two lists of items have an order. -/
def itemsOrdered : List Doc → List Doc → Bool
  | x :: xs, y :: ys => if isSame x y then itemsOrdered xs ys else areOrdered x y
  | _, _ => true

end

/-! ## JSON values are documents -/

mutual

/-- The document a JSON value denotes. -/
def ofJson : Json → Doc
  | .null => null
  | .bool b => bool b
  | .int n => scalar (.int n)
  | .num x => scalar (.num x)
  | .str s => text s
  | .arr items => list (ofItems items)
  | .obj members => map (ofMembers members)

/-- The documents of a list of JSON values. -/
def ofItems : List Json → List Doc
  | [] => []
  | v :: vs => ofJson v :: ofItems vs

/-- The entries of the members of an object. -/
def ofMembers : List (String × Json) → List (Scalar × Doc)
  | [] => []
  | (name, v) :: ms => (.text name, ofJson v) :: ofMembers ms

end

/-! ## Values in messages -/

/-- The dots that stand for a value inside itself. -/
def dots : Doc → String
  | map _ => "\x7b...\x7d"
  | _ => "[...]"

/-- A set with its strings quoted. -/
def shownSet (ms : List Scalar) : String :=
  if ms.isEmpty then "set()"
  else "\x7b" ++ String.intercalate ", " (ms.map Scalar.shown) ++ "\x7d"

mutual

/-- A value with its strings quoted, inside the loops with these numbers. -/
def shownInside (around : List Nat) : Doc → String
  | scalar s => s.shown
  | list items => "[" ++ shownItems around items ++ "]"
  | map es => "\x7b" ++ shownEntries around es ++ "\x7d"
  | set ms => shownSet ms
  | pair a b => "(" ++ shownInside around a ++ ", " ++ shownInside around b ++ ")"
  | loop id v => if around.contains id then v.dots else shownInside (id :: around) v
  | endless => "..."

/-- Items with commas between them. -/
def shownItems (around : List Nat) : List Doc → String
  | [] => ""
  | [v] => shownInside around v
  | v :: vs => shownInside around v ++ ", " ++ shownItems around vs

/-- Entries with commas between them. -/
def shownEntries (around : List Nat) : List (Scalar × Doc) → String
  | [] => ""
  | [(k, v)] => k.shown ++ ": " ++ shownInside around v
  | (k, v) :: es => k.shown ++ ": " ++ shownInside around v ++ ", " ++ shownEntries around es

end

/-- A value with its strings quoted. -/
def shown (v : Doc) : String :=
  v.shownInside []

/-- A value as text: a string or a date as it is, everything else shown. -/
def asText : Doc → String
  | scalar s => s.asText
  | v => v.shown

end Doc

namespace Json

/-- A JSON value as text: a string as it is, everything else shown. -/
def asText (v : Json) : String :=
  (Doc.ofJson v).asText

end Json

end ApiSnippets
