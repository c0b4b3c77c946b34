import ApiSnippets.Yaml.Notation
/-!
# YAML tags

The kind of value that a node is. A tag may be written before a node; a plain
scalar without one has the tag of its looks.
-/

namespace ApiSnippets

namespace Yaml

/-- The kind of value that a node is. -/
inductive Tag where
  | null
  | bool
  | int
  | float
  | date
  | text
  | octets
  | list
  | map
  | set
  /-- A list of pairs. -/
  | pairs
  /-- A key under which other mappings are taken in. -/
  | merge
  /-- A key under which the value of its mapping stands. -/
  | value
  /-- A tag without a meaning here. -/
  | unknown
  deriving DecidableEq, Repr, Inhabited

namespace Tag

/-! ## Written tags -/

/-- The beginning of the tags of the standard types. -/
def standardStart : String := "tag:yaml.org,2002:"

/-- The standard types by name. -/
def standardNames : List (String × Tag) :=
  [("null", .null), ("bool", .bool), ("int", .int), ("float", .float), ("timestamp", .date),
    ("str", .text), ("binary", .octets), ("seq", .list), ("map", .map), ("set", .set),
    ("omap", .pairs), ("pairs", .pairs), ("merge", .merge), ("value", .value)]

/-- The meaning of a tag that is written out. -/
def ofText (s : String) : Tag :=
  ((standardNames.find? fun p => s == standardStart ++ p.1).map Prod.snd).getD .unknown

/-! ## Looks -/

/-- A text without a line break at its end: one such break is of no account
for the looks of a scalar. -/
def withoutBreak (cs : List Char) : List Char :=
  if cs.getLast? = some '\n' then cs.dropLast else cs

/-- The tag of a scalar by its looks. -/
def ofLooks (s : String) : Tag :=
  let cs := withoutBreak s.toList
  let word := String.ofList cs
  if isTruthWord word then .bool
  else if isFloat cs then .float
  else if isInt cs then .int
  else if word == "<<" then .merge
  else if s == "" || word == "~" || isCasing "null" word then .null
  else if isDay cs || isMoment cs then .date
  else if word == "=" then .value
  else if ["!", "&", "*"].contains word then .unknown
  else .text

/-! ## The tag of a node -/

/-- The tag of a scalar. The tag `!` says no more than that the scalar is
taken by its looks. -/
def ofScalar (tag : Option String) (plain : Bool) (s : String) : Tag :=
  match tag with
  | none => if plain then ofLooks s else .text
  | some "!" => ofLooks s
  | some t => ofText t

/-- The tag of a collection, which is that of its kind when none is given. -/
def ofCollection (kind : Tag) (tag : Option String) : Tag :=
  match tag with
  | none => kind
  | some "!" => kind
  | some t => ofText t

end Tag

end Yaml

end ApiSnippets
