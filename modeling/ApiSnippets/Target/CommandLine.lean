import ApiSnippets.Code.Language
/-!
# The command line

A request as one command. Every segment is a word in kebab case, except for
keys, which become options. Options come in a fixed order: keys and bound
parameters, query options, headers, the body. A query option or a header
whose name is taken gets a suffix.
-/

namespace ApiSnippets

namespace CommandLine

/-- An option: its name and its written value. -/
abbrev Options := Entries String String

/-- What stands for the path of a file. -/
def filePlaceholder : String := "<file path>"

/-- A text between single quotes, with a backslash before each line break. -/
def continuedChars (cs : List Char) : List Char :=
  ['\''] ++ cs.flatMap (fun c =>
    if c = '\'' then ['\'', '\\', '\'', '\'']
    else if c = '\n' then ['\\', '\n']
    else [c]) ++ ['\'']

/-- A text between single quotes, with a backslash before each line break. -/
def continued (s : String) : String :=
  String.ofList (continuedChars s.toList)

/-- The conventions of the command line. -/
def dialect : Dialect where
  segmentCase := Naming.kebab
  propertyCase := Naming.kebab
  access := " "
  keyAccess := .none
  takesArguments := false
  text := Text.shellWord
  null := ""
  guid := Text.shellWord
  moment _ value := Text.shellWord value
  binary _ := filePlaceholder
  enum t members _ := String.intercalate " | " (members.map fun m =>
    Package.className t ++ "." ++ Naming.pascal m)

/-! ## Options -/

/-- The option for an argument. -/
def argumentOption (p : BoundParameter) : String × String :=
  (Naming.kebab p.name, if p.placeholder then p.value else Text.shellWord p.value)

/-- The options for a segment. -/
def segmentOptions (s : PathSegment) : List (String × String) :=
  match s.role with
  | .alternate _ key value =>
    [(Naming.kebab key, (value.map Text.shellWord).getD (Dialect.placeholder key))]
  | .keyed _ key => [(Naming.kebab key, Dialect.placeholder key)]
  | .parameter key => [(Naming.kebab key, Dialect.placeholder key)]
  | .action _ ps => ps.map argumentOption
  | .function _ ps => ps.map argumentOption
  | _ => []

/-- The options for a path. One that repeats keeps its place and takes the
last value. -/
def pathOptions (segments : List PathSegment) : Options :=
  Entries.ofPairs (segments.flatMap segmentOptions)

/-- The value of a query option. -/
def optionValue : OptionValue → String
  | .list items => Text.shellWord (String.intercalate "," items)
  | .flag b => dialect.truth b
  | .int n => Text.shellWord (toString n)
  | .num x => Text.shellWord (Number.floatText x)
  | .text s => Text.shellWord s

/-- Options with a suffix behind names that are taken. -/
def distinguish (suffix : String) :
    List String → List (String × String) → List (String × String) × List String
  | taken, [] => ([], taken)
  | taken, (name, value) :: more =>
    let name := if taken.contains name then name ++ suffix else name
    let (options, taken) := distinguish suffix (name :: taken) more
    ((name, value) :: options, taken)

/-- The options for the query and the headers of a request. -/
def callOptions (r : ResolvedRequest) : List (String × String) :=
  let query := r.query.map fun o => (Naming.kebab o.name, optionValue o.value)
  let headers := r.headers.map fun h => (Naming.kebab h.name, Text.shellWord h.value)
  let (query, taken) := distinguish "-query" (Entries.keys (pathOptions r.segments)) query
  query ++ (distinguish "-header" taken headers).1

/-- The option for a body: a file for a stream, the text of the request
otherwise. -/
def bodyOption? (g : BodyGraph) (r : ResolvedRequest) : Option (String × String) :=
  match g.root with
  | .stream _ => some ("file", filePlaceholder)
  | _ =>
    let text := Text.strip (Text.replacePair '\r' '\n' ['\n'] (Utf8.decodeLossy (r.body.getD [])))
    if text.isEmpty || text = "undefined".toList then none
    else some ("body", String.ofList (continuedChars text))

/-- An option as it is written. -/
def writeOption (o : String × String) : String :=
  "--" ++ o.1 ++ " " ++ o.2

/-! ## The command -/

/-- Whether an operation answers with a page of a collection. -/
def returnsCollection (r : ResolvedRequest) : Bool :=
  match r.operation.responseSchema with
  | some s => s.kind == .array || (s.typeName.any fun t => Text.hasEnd "CollectionResponse" t)
  | none => false

/-- Whether a path ends in a property. -/
def endsInProperty (segments : List PathSegment) : Bool :=
  match segments.getLast? with
  | some ⟨.literal _ _, _⟩ => true
  | _ => false

/-- The last word of a command. -/
def verb (r : ResolvedRequest) : String :=
  if r.method = .get ∧ returnsCollection r then "list"
  else if r.method = .post ∧ endsInProperty r.segments then "create"
  else r.method.name

/-- The command. -/
def call (chain : String) (arguments : List String) (r : ResolvedRequest) : String :=
  String.intercalate " " <|
    ["mgc" ++ chain, verb r] ++ (pathOptions r.segments).map writeOption ++ arguments

/-- The options for the query and the headers, as an argument. -/
def configuration (r : ResolvedRequest) : Option String :=
  let options := callOptions r
  if options.isEmpty then none else some (String.intercalate " " (options.map writeOption))

/-- Snippets for the command line. -/
def language : Language where
  id := "cli"
  aliases := ["graph-cli", "mgc"]
  displayName := "Graph CLI"
  dialect := dialect
  body := .command fun g r => (bodyOption? g r).map writeOption
  prologue := []
  configuration r := ([], configuration r)
  arguments body configuration := (configuration.toList ++ body.toList).filter (· ≠ "")
  call := call

end CommandLine

end ApiSnippets
