import ApiSnippets.Doc
import ApiSnippets.Fault
/-!
# References

A reference is a pointer text such as `#/components/schemas/message`: the
steps from the root of the document to a value, with `~1` for a slash and
`~0` for a tilde. Only references into the same document are followed.
-/

namespace ApiSnippets

namespace Pointer

/-- The member that makes a mapping a reference. -/
def key : String := "$ref"

/-- A step with its escapes read. -/
def unescape (cs : List Char) : List Char :=
  Text.replacePair '~' '0' ['~'] (Text.replacePair '~' '1' ['/'] cs)

/-- The item of a list at a position; negative positions count from the end. -/
def itemAt? (items : List Doc) (n : Int) : Option Doc :=
  if 0 ≤ n then items[n.toNat]?
  else if -n ≤ items.length then items[(items.length + n).toNat]?
  else none

/-- One step of a reference into a value. -/
def step (ref : String) (current : Doc) (segment : List Char) : Outcome Doc :=
  let name := String.ofList (unescape segment)
  match current.opened with
  | .map es =>
    match Doc.field? name es with
    | some v => .ok v
    | none => .error (.index (.missingKey ref name))
  | .list items =>
    match (Number.lenientInteger? name.toList).bind (itemAt? items) with
    | some v => .ok v
    | none => .error (.index (.badPosition ref name))
  | v => .error (.index (.notContainer ref v.typeName))

/-- The value the remaining steps lead to. -/
def follow (ref : String) : Doc → List (List Char) → Outcome Doc
  | current, [] => .ok current
  | current, segment :: segments => do
    let next ← step ref current segment
    follow ref next segments

/-- The value a reference points at. -/
def resolve (ref : String) (root : Doc) : Outcome Doc :=
  match ref.toList with
  | '#' :: '/' :: pointer => follow ref root (Text.splitAll '/' pointer)
  | _ => .error (.index (.externalRef ref))

/-- The beginning of references to named schemas. -/
def schemaStart : String := "#/components/schemas/"

/-- The name of the component a reference points at, none when it points
elsewhere. -/
def schemaId? (ref : String) : Option String :=
  if Text.hasStart schemaStart ref then
    some (String.ofList (unescape (ref.toList.drop schemaStart.toList.length)))
  else none

/-- What is wrong with a reference that is no text. -/
def refDefect : Doc → Fault
  | .scalar (.octets _) => .defect .type
  | _ => .defect .part

/-- The text of a reference. -/
def refText : Doc → Outcome String
  | .text s => .ok s
  | v => .error (refDefect v)

/-- The longest chain of references that is followed. -/
def chainLimit : Nat := 16

/-- The value behind a chain of references, at most `limit` of them. -/
def deref (root : Doc) : Nat → Doc → Outcome Doc
  | limit, v =>
    match v.get? key with
    | none => .ok v
    | some ref =>
      match limit with
      | 0 => .error (.index (.longChain ref.asText))
      | limit + 1 => do
        let r ← refText ref
        let next ← resolve r root
        deref root limit next

end Pointer

end ApiSnippets
