import ApiSnippets.Schema.Shape
/-!
# Classified segments

What the segments of a request path mean once they are matched with the
templates: properties, keyed access into collections, actions and functions
with their arguments, references. A type cast has no segment of its own; it is
noted on the segment it applies to.
-/

namespace ApiSnippets

/-- An argument of an action or a function. A placeholder stands for a value
that the request does not give. -/
structure BoundParameter where
  name : String
  value : String
  kind : SchemaKind := .string
  placeholder : Bool := false
  deriving DecidableEq, Repr

/-- What a segment does. -/
inductive SegmentRole where
  /-- A property or an entity set, with the written segment when its name
  differs. -/
  | literal (name : String) (written : Option String)
  /-- A placeholder that is no key of a collection. -/
  | parameter (name : String)
  /-- Access to the preceding collection by a key. -/
  | keyed (collection key : String)
  /-- Access to a collection by one of its alternate keys. -/
  | alternate (collection key : String) (value : Option String)
  | action (name : String) (arguments : List BoundParameter)
  | function (name : String) (arguments : List BoundParameter)
  | reference
  deriving DecidableEq, Repr

/-- A segment with the type it is cast to. -/
structure PathSegment where
  role : SegmentRole
  typeCast : Option String := none
  deriving DecidableEq, Repr

namespace PathSegment

/-- A property or an entity set. -/
def literal (name : String) : PathSegment :=
  ⟨.literal name none, none⟩

/-- The segments with a cast on the last one. -/
def castLast (type : String) (segments : List PathSegment) : List PathSegment :=
  match segments.getLast? with
  | some last => segments.dropLast ++ [{ last with typeCast := some type }]
  | none => []

end PathSegment

end ApiSnippets
