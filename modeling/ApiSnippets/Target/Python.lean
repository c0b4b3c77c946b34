import ApiSnippets.Code.Language
/-!
# Python

Bodies are nested constructor calls with keyword arguments. Query options
become an object of their own inside the configuration of the request. A
keyword that is used as a name gets an underscore behind it.
-/

namespace ApiSnippets

namespace Python

/-- The reserved words. -/
def keywords : List String :=
  ["False", "None", "True", "and", "as", "assert", "async", "await", "break", "class", "continue",
    "def", "del", "elif", "else", "except", "finally", "for", "from", "global", "if", "import",
    "in", "is", "lambda", "nonlocal", "not", "or", "pass", "raise", "return", "try", "while",
    "with", "yield"]

/-- A name in snake case that is no keyword. -/
def property (name : String) : String :=
  let name := Naming.snake name
  if keywords.contains name then name ++ "_" else name

/-- The class that a temporal value is read by. -/
def momentClass? : Temporal → Option String
  | .dateTime => some "datetime"
  | .date => some "date"
  | .time => some "time"
  | .duration => none
  | .other => none

/-- A text read as a temporal value. -/
def moment (t : Temporal) (value : String) : String :=
  match momentClass? t with
  | some name => name ++ ".fromisoformat(" ++ Text.doubleQuoted value ++ ")"
  | none => Text.doubleQuoted value

/-- The conventions of Python. -/
def dialect : Dialect where
  segmentCase := Naming.snake
  propertyCase := property
  variableCase := Naming.snake
  reserved := keywords
  reservedLocals := ["graph_client", "result", "query_params", "request_configuration"]
  keyAccess := .method (fun key => "by_" ++ Naming.snake key) id
  truth b := if b then "True" else "False"
  null := "None"
  guid value := "UUID(" ++ Text.doubleQuoted value ++ ")"
  moment := moment
  binary base64 := "base64.urlsafe_b64decode(" ++ Text.doubleQuoted base64 ++ ")"
  enum t members _ := String.intercalate " | " (members.map fun m =>
    Package.className t ++ "." ++ Naming.pascal m)

/-- Constructor calls. -/
def style : InitializerStyle where
  objectHead t := (Package.className t ++ "(", [])
  objectEnd _ _ := ")"
  field name := property name ++ " = "
  listHead _ := ("[", [])
  listEnd := "]"
  emptyList _ := "[]"
  mapHead := ("\x7b", [])
  mapEnd := "\x7d"
  entry key := Text.doubleQuoted key ++ " : "
  declaration name _ := name ++ " = "
  statementEnd := ""
  stream name base64 := [name ++ " = base64.b64decode(" ++ Text.doubleQuoted base64 ++ ")"]

/-- The statements that declare the query options. -/
def queryParameters (r : ResolvedRequest) : List String :=
  let builder := Package.builder r.segments
  let option (o : QueryOption) :=
    property o.name ++ " = " ++ dialect.optionValue (dialect.texts "[" "," "]") o.value ++ ","
  ["query_params = " ++ builder ++ "." ++ builder ++ Naming.pascal r.method.name ++
      "QueryParameters("] ++ (r.query.map option).map Language.indented ++ [")", ""]

/-- The statements that declare the configuration of a request. -/
def configuration (r : ResolvedRequest) : List String :=
  let header (h : Header) :=
    "request_configuration.headers.add(" ++ Text.doubleQuoted h.name ++ ", " ++
      Text.doubleQuoted h.value ++ ")"
  (if r.query.isEmpty then ["request_configuration = RequestConfiguration()"]
    else queryParameters r ++ ["request_configuration = RequestConfiguration(",
      Language.indented "query_parameters = query_params,", ")"]) ++ r.headers.map header

/-- The call of an operation. -/
def call (chain : String) (arguments : List String) (r : ResolvedRequest) : String :=
  (if r.operation.responseSchema.isSome then "result = " else "") ++ "await graph_client" ++ chain ++
    "." ++ r.method.name ++ "(" ++ String.intercalate ", " arguments ++ ")"

/-! ## Imports -/

/-- A module of the client. -/
def package (parts : List String) : String :=
  String.intercalate "." ("msgraph.generated" :: parts)

/-- The imports of the configuration of a request. -/
def configurationImports (r : ResolvedRequest) : List Import :=
  let builder := Package.builder r.segments
  let parts := (Package.parts r.segments).map Naming.snake ++ [Naming.snake builder]
  (if r.query.isEmpty then [] else [⟨builder, package parts⟩]) ++
    [⟨"RequestConfiguration", "kiota_abstractions.base_request_configuration"⟩]

/-- The import of a type. -/
def model (segments : List PathSegment) (t : TypeRef) : Import :=
  let name := Package.className t
  let parts :=
    if t.synthesized then (Package.parts (Package.owner t segments)).map Naming.snake
    else "models" :: (Package.modelParts t).map Naming.snake
  ⟨name, package (parts ++ [Naming.snake name])⟩

/-- The imports a literal depends on. -/
def literalImports : BodyNode → List Import
  | .datetime _ t => ((momentClass? t).map fun name => ⟨name, "datetime"⟩).toList
  | .guid _ => [⟨"UUID", "uuid"⟩]
  | .binary _ => [⟨"base64", ""⟩]
  | .stream _ => [⟨"base64", ""⟩]
  | _ => []

/-- An import as it is written. A module is imported as a whole when the import
names nothing that it comes from. -/
def writeImport (i : Import) : String :=
  if i.source.isEmpty then "import " ++ i.name else "from " ++ i.source ++ " import " ++ i.name

/-- Snippets in Python. -/
def language : Language where
  id := "python"
  aliases := ["py"]
  displayName := "Python"
  dialect := dialect
  body := .initializer style
  prologue := Language.documentation "#" "graph_client"
  configuration r := (configuration r, some "request_configuration = request_configuration")
  call := call
  imports := some
    { root := [⟨"GraphServiceClient", "msgraph"⟩]
      configuration := configurationImports
      model := model
      literal := literalImports
      types := Language.typesOf
      write := writeImport }

end Python

end ApiSnippets
