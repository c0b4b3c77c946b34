import ApiSnippets.Body.Build
import ApiSnippets.Json.Reader
import ApiSnippets.Resolution.Request
/-!
# The body of a request

What a request sends, as a graph: JSON is typed alongside the schema of the
operation's body, everything else is a stream of octets. A body without a
declared media type is JSON when it can be read as such.

An object that the schema does not name is synthesized. One exception serves
pairs of actions such as `assignLicense` and `assignLicenses`: a body of plain
values that is sent to the plural action, and that a sibling declares as it
is, belongs to the sibling.
-/

namespace ApiSnippets

namespace Body

/-! ## Names -/

/-- The ending of synthesized class names. -/
def classEnding : String := "RequestBody"

/-- The class name of the body of an operation. -/
def className (base : String) (m : Method) : String :=
  Naming.pascal base ++ Naming.pascal m.name ++ classEnding

/-- Whether a path ends in keyed access to a collection. -/
def endsInKey (segments : List PathSegment) : Bool :=
  match segments.getLast? with
  | some ⟨.keyed _ _, _⟩ => true
  | _ => false

/-- The name a segment gives to what it addresses. -/
def addressed? (single : Bool) (s : PathSegment) : Option String :=
  match s.role with
  | .literal name _ => some (if single then Naming.singularize name else name)
  | .alternate collection _ _ => some (Naming.singularize collection)
  | .action name _ => some name
  | .function name _ => some name
  | .parameter _ => none
  | .keyed _ _ => none
  | .reference => none

/-- The name of what a path addresses, in the singular when it ends in a
key. -/
def addressedName (segments : List PathSegment) : String :=
  (segments.reverse.findSome? (addressed? (endsInKey segments))).getD "request"

/-- The action a path ends in. -/
def lastAction? (segments : List PathSegment) : Option String :=
  match segments.getLast? with
  | some ⟨.action name _, _⟩ => some name
  | _ => none

/-! ## Bodies of sibling actions -/

/-- Whether a kind is that of a plain value. -/
def isPrimitive : SchemaKind → Bool
  | .string => true
  | .integer => true
  | .number => true
  | .boolean => true
  | _ => false

/-- Whether a value is plain: no container and not null. -/
def isPlain : Json → Bool
  | .obj _ => false
  | .arr _ => false
  | .null => false
  | _ => true

/-- The members with a plain value where no plain value is declared. -/
def plainMismatches (properties : List (String × Shape)) (members : List (String × Json)) :
    List String :=
  (members.filter fun (name, v) =>
    isPlain v && !Text.hasStart "@" name &&
      match Entries.get? properties name with
      | none => true
      | some s => s.kind == .array || s.kind == .object).map Prod.fst

/-- Whether every member is declared as a plain value. -/
def declaresPlainly (s : Shape) (members : List (String × Json)) : Bool :=
  !s.properties.isEmpty && members.all fun (name, _) =>
    match Entries.get? s.properties name with
    | some p => isPrimitive p.kind
    | none => false

/-- The first sibling of an action whose body declares every member as a
plain value. -/
def siblingBody? (ix : Index) (r : ResolvedRequest) (action : String)
    (members : List (String × Json)) : Option (String × Shape) := do
  let above := String.ofList (Text.beforeLast '/' r.template.toList)
  let node ← ix.resolve (if above.isEmpty then "/" else above)
  node.children.findSome? fun segment => do
    let name := Text.lastComponent (String.ofList (Text.cutAt '(' segment.toList).1)
    if name = action ∨ Text.hasChar '.' segment = false then none
    else
      let sibling ← ix.resolve (above ++ "/" ++ segment)
      let op ← Entries.get? sibling.operations r.method
      let shape ← op.requestSchema
      if declaresPlainly shape members then some (name, shape) else none

/-! ## The root -/

/-- The frame of a body object without a named type. -/
def synthesizedFrame (ix : Index) (r : ResolvedRequest) (shape : Option Shape)
    (members : List (String × Json)) : Frame :=
  let properties := (shape.map (·.properties)).getD []
  let title := (shape.bind (·.title)).filter (· ≠ "")
  let frame (name : String) (action : Option String) (properties : List (String × Shape)) : Frame :=
    ⟨{ name := name, synthesized := true, action := action }, false, shape.isSome, properties⟩
  let plain := className (addressedName r.segments) r.method
  match title, lastAction? r.segments with
  | some title, _ => frame (Naming.pascal title) none properties
  | none, none => frame plain none properties
  | none, some action =>
    let mismatches := plainMismatches properties members
    if mismatches.isEmpty ∨ Naming.singularize action = action then frame plain none properties
    else
      match siblingBody? ix r action members with
      | some (sibling, s) =>
        frame (Naming.pascal (className sibling r.method)) (some sibling) s.properties
      | none => frame plain none (Entries.putAll properties (mismatches.map fun name => (name, {})))

/-- The frame of a body object. -/
def rootFrame (ix : Index) (r : ResolvedRequest) (members : List (String × Json)) : Noted Frame :=
  let shape := r.operation.requestSchema
  match shape.bind Shape.objectName?, shape with
  | some name, _ => do
    let type ← Noted.ofOutcome (typeRefOf ix name)
    namedFrame ix type members
  | none, some s =>
    if s.kind = .object ∨ s.kind = .unknown then
      Frame.refine ix (synthesizedFrame ix r shape members) members
    else Noted.ofOutcome (.error (.shape (.objectRoot r.template s.kind.name)))
  | none, none => Frame.refine ix (synthesizedFrame ix r none members) members

/-- The class name of an array of objects. -/
def elementClass? : BodyNode → Option String
  | .array (some item) _ => item.typeRef?.map fun t => Naming.pascal t.shortName
  | _ => none

/-- The graph of a JSON body. -/
def ofJson (ix : Index) (r : ResolvedRequest) : Json → Noted BodyGraph
  | .obj members => do
    let f ← rootFrame ix r members
    let placed ← placeAll ix f members
    pure ⟨f.node placed, some (Naming.pascal f.type.shortName)⟩
  | v => do
    let n ← value ix r.operation.requestSchema none (addressedName r.segments) v
    pure ⟨n, elementClass? n⟩

/-! ## Media types -/

/-- The media type of a header value, without its parameters. -/
def mediaType (contentType : Option String) : String :=
  String.ofList (Text.lowerChars (Text.strip (Text.cutAt ';' (contentType.getD "").toList).1))

/-- Octets without a byte order mark in front. -/
def withoutMark : Bytes → Bytes
  | 0xEF :: 0xBB :: 0xBF :: bs => bs
  | bs => bs

/-- The JSON value that octets encode, none when they encode none. -/
def jsonOf? (bs : Bytes) : Outcome (Option Json) :=
  match Utf8.decode? (withoutMark bs) with
  | none => .ok none
  | some text =>
    match Json.read text with
    | .ok v => .ok (some v)
    | .error .malformed => .ok none
    | .error .tooLong => .error (.defect .value)

/-- **The graph of a request's body**, none when the body is blank. -/
def build (r : ResolvedRequest) : Noted (Option BodyGraph) :=
  match r.payload? with
  | none => pure none
  | some bs =>
    let media := mediaType r.contentType
    if Index.isBinaryMedia media then pure (some ⟨.stream bs, none⟩)
    else do
      match ← Noted.ofOutcome (jsonOf? bs), Text.contains "json" media with
      | some v, declared =>
        if declared || media.isEmpty then some <$> ofJson r.index r v
        else pure (some ⟨.stream bs, none⟩)
      | none, true => Noted.ofOutcome (.error .malformedBody)
      | none, false => pure (some ⟨.stream bs, none⟩)

end Body

end ApiSnippets
