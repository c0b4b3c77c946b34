import ApiSnippets.Text.Quoted
/-!
# Faults

Every reason for which the library refuses an input, grouped by what is at
fault, with the text and the exit code of each. A `Defect` is different: the
input is so malformed that a step has no meaning for it, and nothing more is
said.
-/

namespace ApiSnippets

/-- A step without meaning for the value it was given. -/
inductive Defect where
  /-- A text or number that is no value of the wanted kind. -/
  | value
  /-- A number beyond the wanted range. -/
  | overflow
  /-- A value of a type the step does not take. -/
  | type
  /-- A value without the part that is asked for. -/
  | part
  /-- A word that names no value. -/
  | name
  /-- A position beyond the end. -/
  | position
  /-- Octets that are not UTF-8. -/
  | encoding
  /-- Octets whose order is not told by a mark. -/
  | mark
  /-- A record with a field of the wrong type. -/
  | record
  /-- A file that cannot be written, or a name that no file can have. -/
  | file
  /-- A user without a home folder. -/
  | home
  /-- A text that no URL has the form of. -/
  | address
  /-- A value that goes on inside itself without end. -/
  | recursion
  deriving DecidableEq, Repr

/-- What is wrong with the description of a request. -/
inductive UsageFault where
  | emptyRequest
  | requestLine (line : String)
  | method (token : String)
  | headerLine (line : String)
  | unreadableRequest (file : String)
  deriving DecidableEq, Repr

/-- Why a URL leads to no operation. -/
inductive PathFault where
  | noVersion (url : String)
  | noResource (url : String)
  | noOperation (method template : String)
  | noMatch (token above : String)
  deriving DecidableEq, Repr

/-- How a JSON value differs from its declared shape. -/
inductive ShapeFault where
  | objectRoot (template kind : String)
  | objectForCollection (hint : String)
  | collectionForObject (hint typeName : String)
  | valueForObject (hint typeName got : String)
  | valueForCollection (hint got : String)
  deriving DecidableEq, Repr

/-- Why there is no index. -/
inductive IndexFault where
  | externalRef (ref : String)
  | missingKey (ref key : String)
  | badPosition (ref position : String)
  | notContainer (ref typeName : String)
  | longChain (ref : String)
  | noPaths
  | swagger (version : String)
  | noVersion
  | unsupportedVersion (version : String)
  | notMapping (typeName : String)
  | invalidJson
  | invalidDocument
  | emptyInput
  | notFound (path : String)
  | emptyFile (path : String)
  | status (code : Nat) (url : String)
  | unreachable (url reason : String)
  deriving DecidableEq, Repr

/-- What is wrong with a configuration file. -/
inductive ConfigFault where
  | invalidGlobal (path : String)
  | invalidProject (path : String)
  | projectNotObject (path : String)
  deriving DecidableEq, Repr

/-- Why a setting is not changed. -/
inductive SettingFault where
  /-- A part of the key before the last names no group of settings. -/
  | invalidKey (key : String)
  /-- The last part of the key names no setting. -/
  | unknownKey (key : String)
  | notInteger (key value : String)
  | language (id : String) (supported : List String)
  deriving DecidableEq, Repr

/-- A reason to give no answer. -/
inductive Fault where
  | usage (cause : UsageFault)
  | path (cause : PathFault) (path : String) (segment : Option String)
  | version (version : String) (configured : List String)
  | language (id : String) (supported : List String)
  | malformedBody
  | shape (cause : ShapeFault)
  | index (cause : IndexFault)
  | config (cause : ConfigFault)
  | setting (cause : SettingFault)
  | defect (kind : Defect)
  deriving DecidableEq, Repr

/-! ## Messages -/

/-- The text of a usage fault. -/
def UsageFault.message : UsageFault → String
  | emptyRequest => "HTTP request text is empty"
  | requestLine line => "Malformed request line: " ++ Text.shown line
  | method token => "Unsupported HTTP method: " ++ token
  | headerLine line => "Malformed header line: " ++ Text.shown line
  | unreadableRequest file => "Cannot read request file " ++ file

/-- The text of a path fault. -/
def PathFault.message : PathFault → String
  | noVersion url => "Request URL has no API version segment: " ++ url
  | noResource url => "Request URL addresses no resource: " ++ url
  | noOperation method template => "No " ++ method ++ " operation declared for " ++ template
  | noMatch token above => "No path segment matches '" ++ token ++ "' under " ++ above

/-- The text of a shape fault. -/
def ShapeFault.message : ShapeFault → String
  | objectRoot template kind =>
    "Request body is a JSON object but " ++ template ++ " expects " ++ kind
  | objectForCollection hint => "'" ++ hint ++ "' expects a collection but got an object"
  | collectionForObject hint typeName =>
    "'" ++ hint ++ "' expects a " ++ typeName ++ " object but got a collection"
  | valueForObject hint typeName got =>
    "'" ++ hint ++ "' expects a " ++ typeName ++ " object but got " ++ got
  | valueForCollection hint got => "'" ++ hint ++ "' expects a collection but got " ++ got

/-- The text of an index fault. -/
def IndexFault.message : IndexFault → String
  | externalRef ref =>
    "External $ref not supported: " ++ ref ++ ". Only internal references (#/...) are handled."
  | missingKey ref key =>
    "Cannot resolve $ref '" ++ ref ++ "': key '" ++ key ++ "' not found at path"
  | badPosition ref position =>
    "Cannot resolve $ref '" ++ ref ++ "': invalid array index '" ++ position ++ "'"
  | notContainer ref typeName =>
    "Cannot resolve $ref '" ++ ref ++ "': cannot navigate into " ++ typeName
  | longChain ref => "Reference chain too long at " ++ ref
  | noPaths => "Document has no 'paths' object"
  | swagger version =>
    "Swagger " ++ version ++
      " is not supported. Only OpenAPI 3.x documents can back a path index."
  | noVersion => "Missing 'openapi' field. Is this an OpenAPI 3.x document?"
  | unsupportedVersion version =>
    "Unsupported OpenAPI version: " ++ version ++ ". Only OpenAPI 3.x is supported."
  | notMapping typeName => "Document must be a JSON/YAML object (got " ++ typeName ++ ")"
  | invalidJson => "Invalid JSON"
  | invalidDocument => "Failed to parse document as JSON or YAML"
  | emptyInput => "No input received from stdin"
  | notFound path => "Index document not found: " ++ path
  | emptyFile path => "Index document is empty: " ++ path
  | status code url => "HTTP " ++ toString code ++ " fetching document from " ++ url
  | unreachable url reason => "Failed to fetch document from " ++ url ++ ": " ++ reason

/-- The text of a configuration fault. -/
def ConfigFault.message : ConfigFault → String
  | invalidGlobal path => "Invalid global config at " ++ path
  | invalidProject path => "Invalid project config at " ++ path
  | projectNotObject path => "Invalid project config at " ++ path ++ ": expected a JSON object"

/-- The text of a language that is not known. -/
def unsupportedLanguage (id : String) (supported : List String) : String :=
  "Unsupported language '" ++ id ++ "'. Supported: " ++ String.intercalate ", " supported

/-- The text of a fault of a setting. -/
def SettingFault.message : SettingFault → String
  | invalidKey key => "Invalid config key: " ++ key
  | unknownKey key => "Unknown config key: " ++ key
  | notInteger key value => "Expected integer for " ++ key ++ ", got: " ++ value
  | language id supported => unsupportedLanguage id supported

/-- Names with commas between them; `none` when there is nothing to show. -/
def listedOrNone (names : List String) : String :=
  let text := String.intercalate ", " names
  if text.isEmpty then "none" else text

namespace Fault

/-- The text of a fault; a defect has none. -/
def message : Fault → String
  | usage cause => cause.message
  | path cause _ _ => cause.message
  | version v configured =>
    "API version '" ++ v ++ "' is not supported (configured: " ++
      listedOrNone configured ++ "). Supply an override index to use other versions."
  | language id supported => unsupportedLanguage id supported
  | malformedBody => "Request body is not valid JSON"
  | shape cause => cause.message
  | index cause => cause.message
  | config cause => cause.message
  | setting cause => cause.message
  | defect _ => ""

/-- The exit code of a command that ends with the fault. -/
def exitCode : Fault → Nat
  | usage _ => 2
  | path _ _ _ => 3
  | version _ _ => 4
  | language _ _ => 5
  | malformedBody => 6
  | shape _ => 7
  | index _ => 8
  | config _ => 1
  | setting _ => 2
  | defect _ => 1

end Fault

/-- A value, or the reason why there is none. -/
abbrev Outcome (α : Type) := Except Fault α

namespace Outcome

variable {α β : Type}

/-- The results of a step on every item, or the first fault. -/
def mapAll (f : α → Outcome β) : List α → Outcome (List β)
  | [] => .ok []
  | x :: xs => do
    let y ← f x
    let ys ← mapAll f xs
    pure (y :: ys)

/-- The results of a step on every item, where the step may use that its
argument is one of them. -/
def mapMem : (xs : List α) → (f : (a : α) → a ∈ xs → Outcome β) → Outcome (List β)
  | [], _ => .ok []
  | x :: xs, f => do
    let y ← f x List.mem_cons_self
    let ys ← mapMem xs fun a h => f a (List.mem_cons_of_mem _ h)
    pure (y :: ys)

@[simp] theorem mapMem_eq (xs : List α) (f : α → Outcome β) :
    mapMem xs (fun a _ => f a) = mapAll f xs := by
  induction xs with
  | nil => rfl
  | cons x xs ih => simp only [mapMem, mapAll, ih]

end Outcome

end ApiSnippets
