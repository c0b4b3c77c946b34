import ApiSnippets.Code.Language
/-!
# Go

Bodies are statements, since generated models have no initializers, and every
plain value is bound to a variable so that its address can be passed. Request
builders live in a package per resource and are named after their position
below it.
-/

namespace ApiSnippets

namespace Go

/-- The reserved words. -/
def keywords : List String :=
  ["break", "case", "chan", "const", "continue", "default", "defer", "else", "fallthrough", "for",
    "func", "go", "goto", "if", "import", "interface", "map", "package", "range", "return",
    "select", "struct", "switch", "type", "var"]

/-- The package of a model. -/
def modelPackage (t : TypeRef) : String :=
  "graphmodels" ++ String.join ((Package.modelParts t).map Text.lower)

/-- The type of a number. -/
def numberType (t : NumberType) : String :=
  (if t.fractional then "float" else "int") ++ (if t.wide then "64" else "32")

/-- A member of an enumeration. -/
def enumMember (t : TypeRef) (member : String) : String :=
  modelPackage t ++ "." ++ Text.upper member ++ "_" ++ Text.upper t.shortName

/-- The conventions of Go. -/
def dialect : Dialect where
  segmentCase := Naming.pascal
  propertyCase := Naming.pascal
  reserved := keywords
  reservedLocals := ["graphClient", "result", "err", "headers", "requestParameters", "configuration"]
  accessorEnd := "()"
  keyAccess := .method (fun key => "By" ++ Naming.pascal key) id
  null := "nil"
  number t digits := numberType t ++ "(" ++ digits ++ ")"
  guid value := "uuid.MustParse(" ++ Text.doubleQuoted value ++ ")"
  moment _ value := Text.doubleQuoted value
  binary base64 := "[]byte(" ++ Text.doubleQuoted base64 ++ ")"
  enum t members _ := String.intercalate " | " (members.map (enumMember t))

/-- The type of the elements of a slice. -/
def itemType : Option ItemType → String
  | none => "interface\x7b\x7d"
  | some (.enum t) => modelPackage t ++ "." ++ Package.className t
  | some (.object t) => modelPackage t ++ "." ++ Package.className t ++ "able"
  | some (.number t) => numberType t
  | some .string => "string"
  | some .boolean => "bool"
  | some .guid => "uuid.UUID"
  | some .datetime => "time.Time"
  | some .binary => "[]byte"
  | some .map => "interface\x7b\x7d"

/-- The constructor of a type. -/
def constructor (segments : List PathSegment) (t : TypeRef) : String :=
  if t.synthesized then
    let (package, parts) := Package.nested (Package.owner t segments)
    "graph" ++ package ++ ".New" ++ String.join parts.dropLast ++ Package.className t
  else modelPackage t ++ ".New" ++ Package.className t

/-- The lines of a statement. -/
def statement (segments : List PathSegment) : Statement → List String
  | .object name t => [name ++ " := " ++ constructor segments t ++ "()"]
  | .list name item elements =>
    [name ++ " := []" ++ itemType item ++ " \x7b"] ++
      (elements.map fun e => Language.indented (e.write dialect ++ ",")) ++ ["\x7d"]
  | .map name entries =>
    [name ++ " := map[string]interface\x7b\x7d\x7b"] ++
      (entries.map fun (key, e) =>
        Language.indented (Text.doubleQuoted key ++ " : " ++ e.write dialect ++ ",")) ++ ["\x7d"]
  | .assign owner member value =>
    [owner ++ ".Set" ++ Naming.pascal member ++ "(" ++ value.write dialect ++ ")"]
  | .scalar name text => [name ++ " := " ++ text]
  | .moment name text => [name ++ " , err := time.Parse(time.RFC3339 , " ++ text ++ ")"]
  | .stream name base64 =>
    [name ++ ", err := base64.StdEncoding.DecodeString(" ++ Text.doubleQuoted base64 ++ ")"]

/-- Bodies as statements, with variables for plain values. -/
def style : SetterStyle where
  rootHint _ := Language.bodyHint
  listHint := Naming.camel
  bindsScalars := true
  write := statement

/-! ## Configuration -/

/-- The value of a query option. -/
def optionValue (v : OptionValue) : String :=
  let text := dialect.optionValue (dialect.texts "[] string \x7b" "," "\x7d") v
  match v with
  | .int _ => "int32(" ++ text ++ ")"
  | .num _ => "float64(" ++ text ++ ")"
  | _ => text

/-- Whether a query option is passed as it is. -/
def isList : OptionValue → Bool
  | .list _ => true
  | _ => false

/-- The variable of a query option that is not passed as it is. -/
def optionVariable (o : QueryOption) : String :=
  "request" ++ Naming.pascal o.name

/-- The variables for query options, with their values. -/
def optionVariables (r : ResolvedRequest) : List (String × String) :=
  (r.query.filter fun o => !isList o.value).map fun o => (optionVariable o, optionValue o.value)

/-- The field for a query option. -/
def optionField (o : QueryOption) : String :=
  Naming.pascal o.name ++ ": " ++
    (if isList o.value then optionValue o.value else "&" ++ optionVariable o) ++ ","

/-- The name of the classes that configure a request. -/
def configurationClass (r : ResolvedRequest) : String :=
  let (package, parts) := Package.nested r.segments
  "graph" ++ package ++ "." ++ String.join parts ++ Package.builderEnding ++
    Naming.pascal r.method.name

/-- The statements that declare the headers. -/
def headers (r : ResolvedRequest) : List String :=
  if r.headers.isEmpty then []
  else
    ["headers := abstractions.NewRequestHeaders()"] ++
      (r.headers.map fun h =>
        "headers.Add(" ++ Text.doubleQuoted h.name ++ ", " ++ Text.doubleQuoted h.value ++ ")") ++
      [""]

/-- The statements that declare the query options. -/
def queryParameters (r : ResolvedRequest) : List String :=
  if r.query.isEmpty then []
  else
    let declared := (optionVariables r).map fun (name, value) => name ++ " := " ++ value
    declared ++ (if declared.isEmpty then [] else [""]) ++
      ["requestParameters := &" ++ configurationClass r ++ "QueryParameters\x7b"] ++
      (r.query.map fun o => Language.indented (optionField o)) ++ ["\x7d"]

/-- The statements that declare the configuration of a request. -/
def configuration (r : ResolvedRequest) : List String :=
  let fields :=
    (if r.headers.isEmpty then [] else ["Headers: headers,"]) ++
      (if r.query.isEmpty then [] else ["QueryParameters: requestParameters,"])
  headers r ++ queryParameters r ++
    ["configuration := &" ++ configurationClass r ++ "RequestConfiguration\x7b"] ++
    fields.map Language.indented ++ ["\x7d"]

/-- The arguments of a call. -/
def arguments (body configuration : Option String) : List String :=
  ["context.Background()"] ++ (body.filter (· ≠ "")).toList ++
    [(configuration.filter (· ≠ "")).getD "nil"]

/-- The call of an operation. -/
def call (chain : String) (arguments : List String) (r : ResolvedRequest) : String :=
  (if r.operation.responseSchema.isSome then "result, err := " else "") ++ "graphClient" ++ chain ++
    "." ++ Naming.pascal r.method.name ++ "(" ++ String.intercalate ", " arguments ++ ")"

/-! ## Imports -/

/-- The module of the client. -/
def moduleName : String := "github.com/microsoftgraph/msgraph-sdk-go"

/-- The import of the package of a path. -/
def packageImport (segments : List PathSegment) : Import :=
  let package := (Package.nested segments).1
  ⟨"graph" ++ package, moduleName ++ "/" ++ package⟩

/-- The import of a type. -/
def model (segments : List PathSegment) (t : TypeRef) : Import :=
  if t.synthesized then packageImport (Package.owner t segments)
  else
    ⟨modelPackage t, moduleName ++ "/" ++
      String.intercalate "/" ("models" :: (Package.modelParts t).map Text.lower)⟩

/-- The imports of the configuration of a request. -/
def configurationImports (r : ResolvedRequest) : List Import :=
  packageImport r.segments ::
    (if r.headers.isEmpty then []
      else [⟨"abstractions", "github.com/microsoft/kiota-abstractions-go"⟩])

/-- The imports a literal depends on. -/
def literalImports : BodyNode → List Import
  | .datetime _ .dateTime => [⟨"", "time"⟩]
  | .guid _ => [⟨"", "github.com/google/uuid"⟩]
  | .stream _ => [⟨"", "encoding/base64"⟩]
  | _ => []

/-- An import as it is written: a quoted path, after its alias. -/
def writeImport (i : Import) : String :=
  (if i.name.isEmpty then "" else i.name ++ " ") ++ "\"" ++ i.source ++ "\""

/-- The import declaration. -/
def layout (imports : List Import) : List String :=
  if imports.isEmpty then []
  else ["import ("] ++ imports.map (fun i => Language.indented (writeImport i)) ++ [")"]

/-- Snippets in Go. -/
def language : Language where
  id := "go"
  displayName := "Go"
  dialect := dialect
  body := .setter style
  prologue := Language.documentation "//" "graphClient"
  configuration r := (configuration r, some "configuration")
  arguments := arguments
  call := call
  imports := some
    { root := [⟨"", "context"⟩, ⟨"msgraphsdk", moduleName⟩]
      configuration := configurationImports
      model := model
      literal := literalImports
      types := Language.typesOf
      write := writeImport
      layout := layout }

end Go

end ApiSnippets
