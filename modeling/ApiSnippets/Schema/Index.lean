import ApiSnippets.Schema.Catalog
import ApiSnippets.Schema.Tree
/-!
# The index of a description

An OpenAPI 3 document as an index: the tree of its path templates with the
operations it declares, and the catalog of its types. Parameters, bodies and
responses may be references, which are followed here.
-/

namespace ApiSnippets

/-- A description made ready for look-ups. -/
structure Index where
  catalog : Catalog
  root : PathNode
  deriving Inhabited

/-- What the tree says about a template. -/
structure IndexMatch where
  path : String
  segments : List String
  operations : List (Method × Operation)
  children : List String := []

/-- The operation that a match has for a method. -/
def IndexMatch.operation? (found : IndexMatch) (m : Method) : Option Operation :=
  Entries.get? found.operations m

namespace Index

open Schema (Fields)

/-! ## The version of a document -/

/-- The version of a document that is an OpenAPI 3 description. -/
def versionOf (doc : Doc) : Outcome String :=
  match doc.get? "swagger" with
  | some v => .error (.index (.swagger v.asText))
  | none =>
    match doc.get? "openapi" with
    | none => .error (.index .noVersion)
    | some .null => .error (.index .noVersion)
    | some v =>
      let text := v.asText
      if Text.hasStart "3." text then .ok text else .error (.index (.unsupportedVersion text))

/-! ## Bodies -/

/-- The beginnings of binary media types. -/
def binaryMedia : List String :=
  ["application/octet-stream", "image/", "audio/", "video/"]

/-- Whether a media type is binary. -/
def isBinaryMedia (media : String) : Bool :=
  binaryMedia.any fun b => Text.hasStart b media

/-- The shape under the `schema` field of a media type. -/
def mediaShape (doc : Doc) (fields : Fields) : Outcome Shape :=
  match Doc.field? "schema" fields with
  | some s => Schema.shapeOf doc s
  | none => .ok {}

/-- The shape of the first media type whose name speaks of JSON. -/
def jsonShape? (doc : Doc) : Fields → Outcome (Option Shape)
  | [] => .ok none
  | (.text media, v) :: es =>
    match v.opened with
    | .map fields =>
      if Text.contains "json" media then (mediaShape doc fields).map some else jsonShape? doc es
    | _ => jsonShape? doc es
  | _ :: _ => .error (.defect .type)

/-- The shape of a body's content: of its JSON form, of a binary form, or of
the first form. -/
def contentShape (doc : Doc) (content : Fields) : Outcome (Option Shape) := do
  match ← jsonShape? doc content with
  | some s => pure (some s)
  | none =>
    if content.any fun e =>
        match e.1 with
        | .text media => isBinaryMedia media
        | _ => false then
      pure (some { kind := .string, formats := ["binary"] })
    else
      match (content.head?.map Prod.snd).map Doc.opened with
      | some (.map fields) => (mediaShape doc fields).map some
      | _ => pure none

/-- The shape of a value under a `content` field. -/
def contentField (doc v : Doc) : Outcome (Option Shape) :=
  match v.opened with
  | .map content => contentShape doc content
  | _ => if v.isTruthy then .error (.defect .part) else .ok none

/-- The shape of a request body. -/
def requestShape (doc : Doc) (body : Option Doc) : Outcome (Option Shape) := do
  match (← Pointer.deref doc Pointer.chainLimit (body.getD .null)).opened with
  | .map fields =>
    match Doc.field? "content" fields with
    | some v => contentField doc v
    | none => pure none
  | _ => pure none

/-! ## Responses -/

/-- The text of a response code. -/
def codeText? : Doc → Option String
  | .text s => some s
  | _ => none

/-- What is wrong with a response code that is no text. -/
def codeDefect : Doc → Fault
  | .scalar (.octets _) => .defect .type
  | _ => .defect .part

/-- Response codes in ascending order. Codes without an order among them
cannot be sorted, and a code that is no text cannot be read. -/
def sortedCodes (codes : List Doc) : Outcome (List String) :=
  match codes.mapM codeText? with
  | some names => .ok (names.mergeSort fun a b => decide (a ≤ b))
  | none =>
    if areOrdered codes then .error ((codes.head?.map codeDefect).getD (.defect .part))
    else .error (.defect .type)
where
  /-- Whether every two values have an order. -/
  areOrdered : List Doc → Bool
    | [] => true
    | v :: vs => vs.all (Doc.areOrdered v) && areOrdered vs

/-- The shape of the first successful response with content. -/
def firstResponse (doc : Doc) (responses : Fields) : List String → Outcome (Option Shape)
  | [] => .ok none
  | code :: codes =>
    if Text.hasStart "2" code then do
      let response ← Pointer.deref doc Pointer.chainLimit
        ((Doc.field? code responses).getD .null)
      match response.get? "content" with
      | some content =>
        if content.isTruthy then contentField doc content else firstResponse doc responses codes
      | none => firstResponse doc responses codes
    else firstResponse doc responses codes

/-- The shape of what an operation answers with. -/
def responseShape (doc : Doc) (responses : Option Doc) : Outcome (Option Shape) :=
  match responses with
  | some v =>
    match v.opened with
    | .map es => do
      let codes ← sortedCodes (es.map fun e => .scalar e.1)
      firstResponse doc es codes
    | _ =>
      if v.isTruthy then do
        let codes ← sortedCodes (← v.elements)
        if codes.any (Text.hasStart "2") then .error (.defect .type) else pure none
      else .ok none
  | none => .ok none

/-! ## Parameters -/

/-- The scalar in a field for a text, and the text it is. -/
def recordScalar : Doc → Outcome (Scalar × String)
  | .scalar s =>
    match s.recordText? with
    | some name => .ok (s, name)
    | none => .error (.defect .record)
  | _ => .error (.defect .record)

/-- The text of a value in a field for a text. -/
def recordText (v : Doc) : Outcome String :=
  (recordScalar v).map Prod.snd

/-- The parameter a value declares, with its name as it stands in the document;
none when it declares none. -/
def parameterOf (doc : Doc) (raw : Doc) : Outcome (Option (Scalar × Parameter)) := do
  match (← Pointer.deref doc Pointer.chainLimit raw).opened with
  | .map fields =>
    match Doc.field? "name" fields with
    | none => pure none
    | some name =>
      let location :=
        match Doc.field? "in" fields with
        | none => some ParameterLocation.query
        | some v => v.text?.bind ParameterLocation.ofName?
      match location with
      | none => pure none
      | some location =>
        let shape ← mediaShape doc fields
        let (key, name) ← recordScalar name
        pure (some (key, ⟨name, location, shape, Schema.isSet "required" fields⟩))
  | _ => pure none

/-- Parameters put in turn: one with the name and the location of an earlier
one replaces it. Names are compared as they stand in the document, so octets
are another name than the text they encode. -/
def mergeParameters (doc : Doc) :
    Entries (Scalar × ParameterLocation) Parameter → List Doc → Outcome (List Parameter)
  | acc, [] => .ok acc.values
  | acc, raw :: more => do
    match ← parameterOf doc raw with
    | some (key, p) => mergeParameters doc (acc.put (key, p.location) p) more
    | none => mergeParameters doc acc more

/-- The values of a field that holds a list, none when it is absent. -/
def listField (name : String) (fields : Fields) : Outcome (List Doc) :=
  match Doc.field? name fields with
  | some v => v.elements
  | none => .ok []

/-! ## Operations -/

/-- The type of an operation: the declared one, else by the template's last
segment. A dotted name is an action when it is posted and a function
otherwise, and a segment with arguments is a function. -/
def operationType (segment : String) (m : Method) (fields : Fields) : OperationType :=
  let declared := (Doc.field? "x-ms-docs-operation-type" fields).bind fun v =>
    v.text?.bind fun s => OperationType.ofName? (Text.lower s)
  let name := (Text.cutAt '(' segment.toList).1
  declared.getD <|
    if name.contains '.' && !PathNode.isPlaceholder segment then
      if m = .post then .action else .function
    else if PathNode.isCall segment then .function
    else .operation

/-- The identifier of an operation. -/
def operationId (fields : Fields) : Outcome (Option String) :=
  match Doc.field? "operationId" fields with
  | none => .ok none
  | some .null => .ok none
  | some v => (recordText v).map some

/-- The operation that fields declare at a template's last segment. -/
def operationOf (doc : Doc) (segment : String) (m : Method) (item fields : Fields) :
    Outcome Operation := do
  let shared ← listField "parameters" item
  let own ← listField "parameters" fields
  let parameters ← mergeParameters doc [] (shared ++ own)
  let request ← requestShape doc (Doc.field? "requestBody" fields)
  let response ← responseShape doc (Doc.field? "responses" fields)
  let id ← operationId fields
  pure
    { method := m
      operationId := id
      operationType := operationType segment m fields
      parameters := parameters
      requestSchema := request
      responseSchema := response }

/-- The operations of a path item, among its other fields. -/
def operationsOf (doc : Doc) (segment : String) (item : Fields) :
    Fields → Outcome (List (Method × Operation))
  | [] => .ok []
  | (.text name, v) :: es =>
    match Method.ofName? name, v.opened with
    | some m, .map fields => do
      let op ← operationOf doc segment m item fields
      let ops ← operationsOf doc segment item es
      pure ((m, op) :: ops)
    | _, _ => operationsOf doc segment item es
  | _ :: es => operationsOf doc segment item es

/-! ## The tree -/

/-- The segments of a template. No octets at all have no segment. -/
def templateSegments : Scalar → Outcome (List String)
  | .text template => .ok (Path.segments template)
  | .octets [] => .ok []
  | _ => .error (.defect .type)

/-- The tree with a template and its operations added. A template whose value
is no mapping is passed over. -/
def addTemplate (doc : Doc) (tree : PathNode) (template : Scalar) (item : Doc) : Outcome PathNode :=
  if item.isMap then do
    let item ← Pointer.deref doc Pointer.chainLimit item
    let segments ← templateSegments template
    match item.opened with
    | .map fields => do
      let ops ← operationsOf doc (segments.getLast?.getD "") fields fields
      pure (tree.insert segments ops)
    | _ => .error (.defect .part)
  else .ok tree

/-- The tree with all templates added in turn. -/
def addTemplates (doc : Doc) : PathNode → Fields → Outcome PathNode
  | tree, [] => .ok tree
  | tree, (template, item) :: paths => do
    let tree ← addTemplate doc tree template item
    addTemplates doc tree paths

/-! ## The index -/

/-- Whether a value can be the name of a schema: a text, or octets. -/
def isSchemaName : Scalar → Bool
  | .text _ => true
  | .octets _ => true
  | _ => false

/-- Whether a name is a sequence of octets. -/
def isOctetName : Scalar → Bool
  | .octets _ => true
  | _ => false

/-- The catalog of named schemas. -/
def catalogOf (doc : Doc) (standIn : Option Doc) (schemas : Fields) : Outcome Catalog :=
  if schemas.all fun e => isSchemaName e.1 then
    .ok
      { document := doc
        schemas := schemas.filterMap fun e =>
          match e.1 with
          | .text name => some (name, e.2)
          | _ => none
        hasOctetNames := schemas.any fun e => isOctetName e.1
        standIn := standIn }
  else .error (.defect .part)

/-- An element that stands in place of a schema, as its name. -/
def bareName : Doc → Scalar × Doc
  | .scalar s => (s, .null)
  | _ => (.null, .null)

/-- The catalog of the schemas under a `schemas` field. -/
def schemasField (doc v : Doc) : Outcome Catalog :=
  match v.opened with
  | .map schemas => catalogOf doc none schemas
  | w =>
    if v.isTruthy then do
      let names ← v.elements
      catalogOf doc (some w) (names.map bareName)
    else .ok { document := doc, schemas := [] }

/-- The catalog of the types of a document. -/
def catalogIn (doc : Doc) : Outcome Catalog :=
  match (doc.get? "components").map Doc.opened with
  | none => .ok { document := doc, schemas := [] }
  | some (.map components) =>
    match Doc.field? "schemas" components with
    | none => .ok { document := doc, schemas := [] }
    | some v => schemasField doc v
  | some _ => .error (.defect .part)

/-- **The index of a document.** -/
def ofDoc (doc : Doc) (validate : Bool) : Outcome Index := do
  if validate then
    let _ ← versionOf doc
  match (doc.get? "paths").map Doc.opened with
  | some (.map paths) =>
    let catalog ← catalogIn doc
    let tree ← addTemplates doc .root paths
    pure ⟨catalog, tree⟩
  | _ => .error (.index .noPaths)

/-- What the tree says about a template path, segment by exact segment. -/
def resolve (ix : Index) (path : String) : Option IndexMatch :=
  let segments := Path.segments path
  (ix.root.find? segments).map fun n =>
    ⟨n.path, segments, n.operations, n.children.map (·.segment)⟩

/-- The type a name stands for, near a namespace when it is ambiguous. -/
def describeType (ix : Index) (name : String) (near : Option String) :
    Outcome (Option TypeDescriptor) :=
  ix.catalog.describe name near

end Index

end ApiSnippets
