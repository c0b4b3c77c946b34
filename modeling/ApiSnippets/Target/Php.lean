import ApiSnippets.Code.Language
/-!
# PHP

Objects are variables filled through setters, lists and maps are array
literals, and a value of an enumeration is constructed from its text. Calls
return promises, which the snippet waits for.
-/

namespace ApiSnippets

namespace Php

/-- A text read as a temporal value. -/
def moment (t : Temporal) (value : String) : String :=
  let text := Text.singleQuoted value
  match t with
  | .date => "new Date(" ++ text ++ ")"
  | .time => "new Time(" ++ text ++ ")"
  | .duration => "new \\DateInterval(" ++ text ++ ")"
  | .dateTime => "new \\DateTime(" ++ text ++ ")"
  | .other => "new \\DateTime(" ++ text ++ ")"

/-- A stream of the octets of a base64 text. -/
def octets (base64 : String) : String :=
  "\\GuzzleHttp\\Psr7\\Utils::streamFor(base64_decode(" ++ Text.singleQuoted base64 ++ "))"

/-- The members of an enumeration. -/
def enumValue (t : TypeRef) (members : List String) (_ : Bool) : String :=
  "new " ++ Package.className t ++ "(" ++ Text.singleQuoted (String.intercalate "," members) ++ ")"

/-- A reference to a variable. -/
def variableText (name : String) : String :=
  "$" ++ name

/-- The conventions of PHP. -/
def dialect : Dialect where
  segmentCase := Naming.camel
  propertyCase := Naming.camel
  reservedLocals :=
    ["graphServiceClient", "result", "requestConfiguration", "headers", "queryParameters"]
  access := "->"
  accessorEnd := "()"
  keyAccess := .method Naming.keyAccessor Dialect.placeholder
  reference := variableText
  text := Text.singleQuoted
  guid := Text.singleQuoted
  moment := moment
  binary := octets
  enum := enumValue

/-- The lines of a statement. -/
def statement : Statement → List String
  | .object name t => [variableText name ++ " = new " ++ Package.className t ++ "();"]
  | .list name _ elements =>
    if elements.isEmpty then [variableText name ++ " = [];"]
    else
      [variableText name ++ " = ["] ++
        (elements.map fun e => Language.indented (e.write dialect ++ ",")) ++ ["];"]
  | .map name entries =>
    [variableText name ++ " = ["] ++
      (entries.map fun (key, e) =>
        Language.indented (Text.singleQuoted key ++ " => " ++ e.write dialect ++ ",")) ++ ["];"]
  | .assign owner member value =>
    [variableText owner ++ "->set" ++ Naming.pascal member ++ "(" ++ value.write dialect ++ ");"]
  | .scalar name text => [variableText name ++ " = " ++ text ++ ";"]
  | .moment name text => [variableText name ++ " = " ++ text ++ ";"]
  | .stream name base64 => [variableText name ++ " = " ++ octets base64 ++ ";"]

/-- Bodies as statements. -/
def style : SetterStyle where
  rootHint _ := Language.bodyHint
  listHint name := Naming.camel name ++ "Array"
  bindsScalars := false
  write _ := statement

/-- The class that configures a request. -/
def configurationClass (r : ResolvedRequest) : String :=
  Package.builder r.segments ++ Naming.pascal r.method.name ++ "RequestConfiguration"

/-- The statements that set the headers. -/
def headers (r : ResolvedRequest) : List String :=
  if r.headers.isEmpty then []
  else
    ["$headers = ["] ++
      (r.headers.map fun h =>
        Language.indented (Text.singleQuoted h.name ++ " => " ++ Text.singleQuoted h.value ++ ",")) ++
      ["];", "$requestConfiguration->headers = $headers;"]

/-- The statements that set the query options. -/
def queryParameters (r : ResolvedRequest) : List String :=
  let option (o : QueryOption) :=
    "$queryParameters->" ++ Naming.camel o.name ++ " = " ++
      dialect.optionValue (dialect.texts "[" "," "]") o.value ++ ";"
  if r.query.isEmpty then []
  else
    ["", "$queryParameters = " ++ configurationClass r ++ "::createQueryParameters();"] ++
      r.query.map option ++ ["$requestConfiguration->queryParameters = $queryParameters;"]

/-- The statements that declare the configuration of a request. -/
def configuration (r : ResolvedRequest) : List String :=
  ["$requestConfiguration = new " ++ configurationClass r ++ "();"] ++ headers r ++
    queryParameters r

/-- The call of an operation. -/
def call (chain : String) (arguments : List String) (r : ResolvedRequest) : String :=
  (if r.operation.responseSchema.isSome then "$result = " else "") ++ "$graphServiceClient" ++
    chain ++ "->" ++ r.method.name ++ "(" ++ String.intercalate ", " arguments ++ ")->wait();"

/-! ## Imports -/

/-- A class of the client. -/
def qualified (parts : List String) : Import :=
  ⟨"", String.intercalate "\\" ("Microsoft\\Graph\\Generated" :: parts)⟩

/-- The import of a type. -/
def model (segments : List PathSegment) (t : TypeRef) : Import :=
  qualified <|
    (if t.synthesized then (Package.parts (Package.owner t segments)).map Naming.pascal
      else "Models" :: (Package.modelParts t).map Naming.pascal) ++ [Package.className t]

/-- The imports a literal depends on. -/
def literalImports : BodyNode → List Import
  | .datetime _ .date => [⟨"", "Microsoft\\Kiota\\Abstractions\\Types\\Date"⟩]
  | .datetime _ .time => [⟨"", "Microsoft\\Kiota\\Abstractions\\Types\\Time"⟩]
  | _ => []

/-- Snippets in PHP. -/
def language : Language where
  id := "php"
  displayName := "PHP"
  dialect := dialect
  body := .setter style
  prologue := Language.documentation "//" "graphServiceClient"
  configuration r := (configuration r, some "$requestConfiguration")
  call := call
  imports := some
    { root := [⟨"", "Microsoft\\Graph\\GraphServiceClient"⟩]
      configuration := fun r =>
        [qualified ((Package.parts r.segments).map Naming.pascal ++ [configurationClass r])]
      model := model
      literal := literalImports
      types := Language.typesOf
      write := fun i => "use " ++ i.source ++ ";" }

end Php

end ApiSnippets
