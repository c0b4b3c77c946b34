import ApiSnippets.Fault
import ApiSnippets.Json.Reader
import ApiSnippets.Json.Writer
import ApiSnippets.Schema.Cache
/-!
# Configurations

The settings of a user and their text, a JSON object. Writing (`Config.text`)
gives every setting; reading (`Config.ofJson?`) takes the defaults for those
that are missing, ignores members it does not know, and is lenient about truth
values and integers.
-/

namespace ApiSnippets

/-- The settings of a user. -/
structure Config where
  /-- The source of the description of each version. -/
  sources : Entries String String
  /-- The source that serves every version, if there is one. -/
  override : Option String := none
  /-- The language of snippets when none is asked for. -/
  language : String := "c#"
  format : String := "auto"
  caching : Caching := {}
  deriving DecidableEq, Repr

namespace Config

/-- Where the published descriptions are. -/
def publishedAt (version : String) : String :=
  "https://raw.githubusercontent.com/microsoftgraph/msgraph-metadata/master/openapi/" ++ version ++
    "/openapi.yaml"

/-- The settings of a user who has chosen none. -/
def default : Config where
  sources := ["v1.0", "beta"].map fun v => (v, publishedAt v)

/-! ## Writing -/

/-- A string, or null when there is none. -/
def optional (s : Option String) : Json :=
  match s with
  | some s => .str s
  | none => .null

/-- The settings as a JSON object. -/
def toJson (c : Config) : Json :=
  .obj [("index_sources", .obj (c.sources.map fun p => (p.1, .str p.2))),
    ("override_index", optional c.override), ("default_language", .str c.language),
    ("output", .obj [("format", .str c.format)]),
    ("cache", .obj [("enabled", .bool c.caching.enabled), ("ttl_seconds", .int c.caching.lifetime)])]

/-- The text of a configuration file. -/
def text (c : Config) : String :=
  c.toJson.pretty ++ "\n"

/-- Whether the integer among the settings has no more digits than are read or
written. -/
def isWritable (c : Config) : Bool :=
  decide (c.caching.lifetime.natAbs < Number.tenTo Number.maxDigits)

/-! ## Reading -/

/-- The truth value a word stands for. -/
def truthOfWord? (s : String) : Option Bool :=
  let word := String.ofList (s.toList.map Char.toLower)
  if ["1", "t", "y", "on", "yes", "true"].contains word then some true
  else if ["0", "f", "n", "no", "off", "false"].contains word then some false
  else none

/-- The truth value of zero and one. -/
def truthOfInt? (n : Int) : Option Bool :=
  if n = 0 then some false else if n = 1 then some true else none

/-- The integer a double is equal to. -/
def wholeOfFloat? (x : Float) : Option Int :=
  (Number.truncate? x).filter fun n => (Number.floatOfInt? n).any (· == x)

/-- The integer a word stands for: as a lenient integer, with a fraction of
zeros, one at least, allowed. -/
def wholeOfWord? (s : String) : Option Int :=
  let cs := Text.trim Number.isSurround s.toList
  let digits :=
    match Text.cutAt '.' cs with
    | (whole, some fraction) =>
      if !fraction.isEmpty && fraction.all (· == '0') then whole else cs
    | (whole, none) => whole
  if digits.all fun c => decide (c.toNat < 128) then Number.lenientInteger? digits else none

/-- The text of a string. -/
def textOf? : Json → Option String :=
  Json.text?

/-- The text of a string, or none for null. -/
def optionalOf? : Json → Option (Option String)
  | .null => some none
  | v => v.text?.map some

/-- The truth value of a value. -/
def truthOf? : Json → Option Bool
  | .bool b => some b
  | .int n => truthOfInt? n
  | .num x => (wholeOfFloat? x).bind truthOfInt?
  | .str s => truthOfWord? s
  | _ => none

/-- The integer of a value. -/
def wholeOf? : Json → Option Int
  | .bool b => some (if b then 1 else 0)
  | .int n => some n
  | .num x => wholeOfFloat? x
  | .str s => wholeOfWord? s
  | _ => none

/-- The sources of the versions. -/
def sourcesOf? : Json → Option (Entries String String)
  | .obj members => members.mapM fun p => p.2.text?.map fun s => (p.1, s)
  | _ => none

/-- A member of an object, read if it is there. -/
def member {α : Type} (members : List (String × Json)) (name : String) (otherwise : α)
    (read : Json → Option α) : Option α :=
  match members.lookup name with
  | some v => read v
  | none => some otherwise

/-- The caching an object describes. -/
def cachingOf? : Json → Option Caching
  | .obj members => do
    let enabled ← member members "enabled" true truthOf?
    let lifetime ← member members "ttl_seconds" 86400 wholeOf?
    pure ⟨enabled, lifetime⟩
  | _ => none

/-- The output format an object describes. -/
def formatOf? : Json → Option String
  | .obj members => member members "format" "auto" textOf?
  | _ => none

/-- **The settings a JSON value describes**, if it describes any. -/
def ofJson? : Json → Option Config
  | .obj members => do
    let sources ← member members "index_sources" default.sources sourcesOf?
    let override ← member members "override_index" none optionalOf?
    let language ← member members "default_language" "c#" textOf?
    let format ← member members "output" "auto" formatOf?
    let caching ← member members "cache" {} cachingOf?
    pure ⟨sources, override, language, format, caching⟩
  | _ => none

/-- The settings of a configuration file at a path. An integer that is too
long to be read is a defect. -/
def read (path content : String) : Outcome Config :=
  match Json.read content with
  | .ok v =>
    match ofJson? v with
    | some c => .ok c
    | none => .error (.config (.invalidGlobal path))
  | .error .tooLong => .error (.defect .value)
  | .error .malformed => .error (.config (.invalidGlobal path))

end Config

end ApiSnippets
