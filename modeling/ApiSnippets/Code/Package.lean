import ApiSnippets.Body.Node
import ApiSnippets.Naming
import ApiSnippets.Request.Segment
/-!
# Packages and class names

Where the generated clients keep the classes that a path or a type stands
for. The builder of a path lives in a package with one part per segment; a
model lives in a package named after its namespace. The signed-in user is an
alias: `me` stands for an item of `users`.
-/

namespace ApiSnippets

namespace Package

/-! ## Paths -/

/-- The segment of the signed-in user. -/
def me : String := "me"

/-- The last component of a type's name as a class name. -/
def castClass (type : String) : String :=
  Naming.pascal (Text.lastComponent type)

/-- The type a segment is cast to, when it is cast. -/
def castOf? (s : PathSegment) : Option String :=
  s.typeCast.filter (· ≠ "")

/-- The parts for a segment itself. -/
def roleParts : SegmentRole → List String
  | .literal name _ => if name = me then ["users", "item"] else [Naming.camel name]
  | .alternate collection key _ => [Naming.alternateKeyAccessor collection key]
  | .keyed _ _ => ["item"]
  | .parameter _ => ["item"]
  | .action name _ => [Naming.camel name]
  | .function name _ => [Naming.camel name]
  | .reference => ["ref"]

/-- The parts for a segment and its type cast. -/
def segmentParts (s : PathSegment) : List String :=
  roleParts s.role ++ ((castOf? s).map fun t => "graph" ++ castClass t).toList

/-- The package of the builder of a path. -/
def parts (segments : List PathSegment) : List String :=
  segments.flatMap segmentParts

/-! ## Builders -/

/-- The ending of builder class names. -/
def builderEnding : String := "RequestBuilder"

/-- The class name of a segment's builder, without its ending. -/
def builderBase (s : PathSegment) : String :=
  match castOf? s with
  | some t => "Graph" ++ castClass t
  | none =>
    match s.role with
    | .literal name _ => if name = me then "UserItem" else Naming.pascal name
    | .alternate collection key _ => Naming.pascal collection ++ "With" ++ Naming.pascal key
    | .keyed collection _ => Naming.pascal (Naming.singularize collection) ++ "Item"
    | .parameter name => Naming.pascal name
    | .action name _ => Naming.pascal name
    | .function name _ => Naming.pascal name
    | .reference => "Ref"

/-- The class name of the builder of a path. -/
def builder (segments : List PathSegment) : String :=
  ((segments.getLast?.map builderBase).getD "") ++ builderEnding

/-! ## Builders that are named after their position -/

/-- The package that a path begins with, and what its first segment adds to
the names below. -/
def firstPart (s : PathSegment) : String × List String :=
  match s.role with
  | .literal name _ => if name = me then ("users", ["Item"]) else (Text.lower name, [])
  | .keyed collection key =>
    (Text.lower collection, [Naming.pascal collection ++ "With" ++ Naming.pascal key])
  | .alternate collection key _ =>
    (Text.lower collection, [Naming.pascal collection ++ "With" ++ Naming.pascal key])
  | .parameter name => (Text.lower name, [])
  | .action name _ => (Text.lower name, [])
  | .function name _ => (Text.lower name, [])
  | .reference => ("ref", [])

/-- What a later segment adds to the names. -/
def nestedParts (s : PathSegment) : List String :=
  let own :=
    match s.role with
    | .literal name _ => Naming.pascal name
    | .alternate collection key _ => Naming.pascal collection ++ "With" ++ Naming.pascal key
    | .keyed _ _ => "Item"
    | .parameter _ => "Item"
    | .action name _ => Naming.pascal name
    | .function name _ => Naming.pascal name
    | .reference => "Ref"
  own :: ((castOf? s).map fun t => "Graph" ++ castClass t).toList

/-- The package of a path's first segment and the parts of the builder's name
below it; there is always one. -/
def nested : List PathSegment → String × List String
  | [] => ("", [])
  | first :: more =>
    let (package, start) := firstPart first
    let names := start ++ more.flatMap nestedParts
    (package, if names.isEmpty then [Naming.pascal package] else names)

/-! ## Types -/

/-- The class name of a type. -/
def className (t : TypeRef) : String :=
  Naming.pascal t.shortName

/-- The namespace whose types live in the root of the model package. -/
def rootNamespace : String := "microsoft.graph"

/-- The package of a model below the root of the model package. -/
def modelParts (t : TypeRef) : List String :=
  if t.namespaceName = rootNamespace then []
  else
    let start := rootNamespace ++ "."
    let below :=
      if Text.hasStart start t.namespaceName then
        String.ofList (t.namespaceName.toList.drop start.length)
      else t.namespaceName
    (Text.pieces '.' below).filter (· ≠ "")

/-- A segment under another name. -/
def rename (name : String) (s : PathSegment) : PathSegment :=
  match s.role with
  | .literal _ written => { s with role := .literal name written }
  | .parameter _ => { s with role := .parameter name }
  | .action _ ps => { s with role := .action name ps }
  | .function _ ps => { s with role := .function name ps }
  | _ => s

/-- The path whose package declares a synthesized type: the path of the
request, or that of the sibling action the type belongs to. -/
def owner (t : TypeRef) (segments : List PathSegment) : List PathSegment :=
  match t.action, segments.getLast? with
  | some action, some last => segments.dropLast ++ [rename action last]
  | _, _ => segments

/-- The model that an operation answers with, when it is a named one. -/
def responseType? (response : Option Shape) : Option TypeRef :=
  match response with
  | some s =>
    if s.kind = .object ∨ s.kind = .enum then (s.typeName.filter (· ≠ "")).map TypeRef.ofName
    else none
  | none => none

end Package

end ApiSnippets
