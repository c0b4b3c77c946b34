import ApiSnippets.Code.Language
/-!
# TypeScript

Models are interfaces, so bodies are object literals with a type at their
declaration, and an object that names its own type is asserted to be of it.
The values of an enumeration are texts; flags form an array of them.
-/

namespace ApiSnippets

namespace TypeScript

/-- A text read as a temporal value. -/
def moment (t : Temporal) (value : String) : String :=
  match t with
  | .dateTime => "new Date(" ++ Text.doubleQuoted value ++ ")"
  | _ => Text.doubleQuoted value

/-- The members of an enumeration. -/
def enumValue (_ : TypeRef) (members : List String) (flags : Bool) : String :=
  if flags then "[" ++ String.intercalate ", " (members.map Text.doubleQuoted) ++ "]"
  else Text.doubleQuoted (String.intercalate "," members)

/-- The conventions of TypeScript. -/
def dialect : Dialect where
  segmentCase := Naming.camel
  propertyCase := Naming.camel
  reservedLocals := ["graphServiceClient", "result", "configuration"]
  keyAccess := .method Naming.keyAccessor Dialect.placeholder
  moment := moment
  binary := Text.doubleQuoted
  enum := enumValue

/-- The start of the declaration of a body. -/
def declaration (name : String) : BodyNode → String
  | .object t _ false => "const " ++ name ++ " : " ++ Package.className t ++ " = "
  | _ => "const " ++ name ++ " = "

/-- Object literals. -/
def style : InitializerStyle where
  objectHead _ := ("\x7b", [])
  objectEnd t derived := if derived then "\x7d as " ++ Package.className t else "\x7d"
  field name := Naming.camel name ++ " : "
  listHead _ := ("[", [])
  listEnd := "]"
  emptyList _ := "[]"
  mapHead := ("\x7b", [])
  mapEnd := "\x7d"
  entry key := Text.doubleQuoted key ++ " : "
  declaration := declaration
  statementEnd := ";"
  stream name base64 :=
    ["const " ++ name ++ " = Buffer.from(" ++ Text.doubleQuoted base64 ++ ", \"base64\");"]

/-- A section of the configuration, none without entries. -/
def configurationPart (name : String) (entries : List String) : List String :=
  if entries.isEmpty then []
  else
    [Language.joined [Language.indented (name ++ ": \x7b"),
      String.intercalate ",\n" (entries.map fun e => Language.indented (Language.indented e)),
      Language.indented "\x7d"]]

/-- The object that configures a request. -/
def configuration (r : ResolvedRequest) : String :=
  let option (o : QueryOption) :=
    Naming.camel o.name ++ ": " ++ dialect.optionValue (dialect.texts "[" "," "]") o.value
  let header (h : Header) := Text.doubleQuoted h.name ++ " : " ++ Text.doubleQuoted h.value
  let parts := configurationPart "queryParameters" (r.query.map option) ++
    configurationPart "headers" (r.headers.map header)
  "\x7b\n" ++ String.intercalate ",\n" parts ++ "\n\x7d"

/-- The call of an operation. -/
def call (chain : String) (arguments : List String) (r : ResolvedRequest) : String :=
  (if r.operation.responseSchema.isSome then "const result = " else "") ++
    "await graphServiceClient" ++ chain ++ "." ++ r.method.name ++ "(" ++
    String.intercalate ", " arguments ++ ");"

/-! ## Imports -/

/-- The types that a body names: that of the root, and those that objects name
for themselves. -/
def types (n : BodyNode) : List TypeRef :=
  (match n with
    | .object t _ false => [t]
    | _ => []) ++
  n.walk.filterMap fun
    | .object t _ true => some t
    | _ => none

/-- The package of the client. -/
def packageName : String := "@microsoft/msgraph-sdk"

/-- The module of a type. -/
def moduleOf (segments : List PathSegment) (t : TypeRef) : String :=
  if t.synthesized then
    match Package.parts (Package.owner t segments) with
    | [] => packageName
    | first :: more => packageName ++ "-" ++ first ++ "/" ++ String.intercalate "/" (first :: more)
  else String.intercalate "/" (packageName :: "models" :: Package.modelParts t)

/-- The import of a type. -/
def model (segments : List PathSegment) (t : TypeRef) : Import :=
  ⟨Package.className t, moduleOf segments t⟩

/-- The import of names from one module. -/
def importFrom (names : List String) (source : String) : String :=
  "import \x7b " ++ String.intercalate ", " names ++ " \x7d from " ++ Text.asciiQuoted source ++ ";"

/-- The names imported from a module, in ascending order. -/
def namesFrom (imports : List Import) (source : String) : List String :=
  (((imports.filter fun i => i.source == source).map (·.name)).eraseDups).mergeSort
    fun a b => decide (a ≤ b)

/-- One statement per module, with all names imported from it. -/
def layout (imports : List Import) : List String :=
  ((imports.map (·.source)).eraseDups).map fun source =>
    importFrom (namesFrom imports source) source

/-- Snippets in TypeScript. -/
def language : Language where
  id := "typescript"
  aliases := ["javascript", "ts", "js"]
  displayName := "TypeScript"
  dialect := dialect
  body := .initializer style
  prologue := Language.documentation "//" "graphServiceClient"
  configuration r := ([], some (configuration r))
  call := call
  imports := some
    { model := model
      types := types
      write := fun i => importFrom [i.name] i.source
      layout := layout }

end TypeScript

end ApiSnippets
