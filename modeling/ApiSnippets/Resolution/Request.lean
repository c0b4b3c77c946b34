import ApiSnippets.Registry
import ApiSnippets.Request.Http
import ApiSnippets.Request.Query
import ApiSnippets.Request.Legacy
import ApiSnippets.Request.Url
import ApiSnippets.Resolution.Classify
import ApiSnippets.Resolution.Match
/-!
# Resolved requests

A recorded request matched against the index of its API version: the template
it addresses, its classified segments, the operation and the typed query. The
version is the first segment of the path; what follows it, with a legacy
beginning replaced, is walked down the tree of templates.
-/

namespace ApiSnippets

/-- A request with the operation it calls. -/
structure ResolvedRequest where
  method : Method
  version : String
  path : String
  template : String
  segments : List PathSegment
  operation : Operation
  query : List QueryOption
  headers : List Header
  contentType : Option String
  body : Option Bytes
  /-- The index that knows the types of the body. -/
  index : Index

namespace Resolution

/-! ## The walk -/

/-- A node of the tree and the classified segments that lead to it. -/
structure Place where
  node : PathNode
  segments : List PathSegment

/-- The place below a child that a segment matches. -/
def Place.enter (p : Place) (child : PathNode) (segment : String) : Noted Place := do
  match ← PathSegment.classify child segment p.segments with
  | some s => pure ⟨child, p.segments ++ [s]⟩
  | none =>
    if p.segments.isEmpty then
      pure ⟨child, [PathSegment.literal (Text.lastComponent child.segment)]⟩
    else pure ⟨child, PathSegment.castLast child.segment p.segments⟩

/-- The place after one more segment. A type cast without a node of its own
stays at the node. -/
def Place.step (ix : Index) (path : String) (p : Place) (segment : String) : Noted Place := do
  match p.node.match? segment with
  | some child => p.enter child segment
  | none =>
    match ← ix.typeCast? segment, p.segments.isEmpty with
    | some type, false => pure { p with segments := PathSegment.castLast type p.segments }
    | _, _ =>
      match p.node.placeholder? with
      | some child => p.enter child segment
      | none => Noted.ofOutcome (.error (.path (.noMatch segment p.node.path) path (some segment)))

/-- The place after a sequence of segments. -/
def walk (ix : Index) (path : String) : Place → List String → Noted Place
  | p, [] => pure p
  | p, segment :: more => do
    let p ← p.step ix path segment
    walk ix path p more

/-! ## Requests -/

/-- The URL of a request, the API version it asks for and the path of the
resource, with a legacy beginning replaced. -/
def target (r : HttpRequest) : Except Fault (Url × String × String) := do
  let url ← Url.parse (Text.stripped r.url)
  match Path.segments (String.ofList (Text.percentDecode url.path.toList)) with
  | version :: more => pure (url, version, Path.modernise (Path.ofSegments more))
  | [] => .error (.path (.noVersion r.url) url.path none)

/-- The API version a request asks for. -/
def versionOf (r : HttpRequest) : Outcome String := do
  let (_, version, _) ← target r
  pure version

/-- Headers that describe the transport and not the call. -/
def framingHeaders : List String :=
  ["host", "content-length", "content-type", "transfer-encoding", "connection", "keep-alive",
    "upgrade", "te", "trailer"]

/-- The headers of a request that belong to the call. -/
def callHeaders (headers : List Header) : List Header :=
  headers.filter fun h => !framingHeaders.contains (Text.lower h.name)

/-- **A request resolved against an index**, which must be the one of the
version it asks for. The operation is looked up under the template path of the
node where the walk ends. -/
def resolve (ix : Index) (r : HttpRequest) : Noted ResolvedRequest := do
  let (url, version, path) ← target r
  let place ← walk ix path ⟨ix.root, []⟩ (Path.segments path)
  if place.segments.isEmpty then
    Noted.ofOutcome (.error (.path (.noResource r.url) path none))
  else
    match (ix.resolve place.node.path).bind (·.operation? r.method) with
    | none =>
      Noted.ofOutcome
        (.error (.path (.noOperation (Text.upper r.method.name) place.node.path) path none))
    | some op =>
      let query ← Query.parse url.query op
      pure
        { method := r.method
          version := version
          path := path
          template := place.node.path
          segments := place.segments
          operation := op
          query := query
          headers := callHeaders r.headers
          contentType := r.contentType?
          body := r.body
          index := ix }

/-- A request resolved against the index that a registry has for its version,
with the registry and its surroundings afterwards. A URL without a version
asks for no index. -/
def resolveIn {S W : Type} (build : S → W → Outcome Index × W) (registry : Registry S Index)
    (r : HttpRequest) (w : W) : Noted ResolvedRequest × Registry S Index × W :=
  match versionOf r with
  | .error e => (Noted.ofOutcome (.error e), registry, w)
  | .ok version =>
    let (ix, registry, w) := registry.get build version w
    match ix with
    | .error e => (Noted.ofOutcome (.error e), registry, w)
    | .ok ix => (resolve ix r, registry, w)

end Resolution

namespace ResolvedRequest

/-- Whether an octet is a blank. -/
def isBlankOctet (b : UInt8) : Bool :=
  b == 32 || (9 ≤ b && b ≤ 13)

/-- The body, when it is not blank. -/
def payload? (r : ResolvedRequest) : Option Bytes :=
  r.body.filter fun bs => !bs.all isBlankOctet

/-- Whether the call has query options or headers to configure. -/
def hasConfiguration (r : ResolvedRequest) : Bool :=
  !r.query.isEmpty || !r.headers.isEmpty

end ResolvedRequest

end ApiSnippets
