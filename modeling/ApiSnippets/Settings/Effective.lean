import ApiSnippets.Settings.Setting
import ApiSnippets.Schema.Source
/-!
# The configuration in effect

What a command goes by: the configuration of the user, changed by the project
file of the working folder, that by the environment, and that by what the
command line asks for. The later of these wins wherever it has something to
say.
-/

namespace ApiSnippets

namespace Config

/-! ## The user -/

/-- The name of the configuration file in its folder. -/
def fileName : String := "config.json"

/-- The path of the configuration file. -/
def path (w : Workspace) : String :=
  w.configFolder ++ "/" ++ fileName

/-- The configuration of the user: the default one when there is no file. Its
folder is made where it is missing. -/
def load (w : Workspace) : Outcome Config :=
  if (w.makeFolder? w.configFolder).isNone then .error (.defect .file)
  else
    match w.text (path w) with
    | .absent => .ok default
    | .garbled => .error (.defect .encoding)
    | .text s => read (path w) s

/-- The workspace after a configuration is saved. Its folder is made first; an
integer that is too long to be written is a defect. -/
def save (c : Config) (w : Workspace) : Outcome Workspace :=
  if (w.makeFolder? w.configFolder).isSome && !c.isWritable then .error (.defect .value)
  else
    match w.writeIn? w.configFolder fileName (Utf8.encode c.text.toList) with
    | some w => .ok w
    | none => .error (.defect .file)

/-- The workspace with a new source for a version in the configuration of the
user. -/
def setSource (version source : String) (w : Workspace) : Outcome Workspace := do
  let config ← load w
  (config.withSource version source).save w

/-- **The workspace with a new value for a setting** in the configuration of the
user, and the value as it is shown. -/
def set (key value : String) (w : Workspace) : Outcome (Workspace × String) := do
  let config ← load w
  match Setting.assignAt config key value with
  | .ok (config, shown) => pure (← config.save w, shown)
  | .error e => .error (.setting e)

/-! ## The project -/

/-- The path of the project file. -/
def projectPath (w : Workspace) : String :=
  Place.text (w.folder ++ ["snipgen.json"])

/-- The members of the project file, none when there is no file. -/
def project (w : Workspace) : Outcome (List (String × Json)) :=
  match w.text (projectPath w) with
  | .absent => .ok []
  | .garbled => .error (.defect .encoding)
  | .text s =>
    match Json.read s with
    | .ok (.obj members) => .ok members
    | .ok _ => .error (.config (.projectNotObject (projectPath w)))
    | .error .tooLong => .error (.defect .value)
    | .error .malformed => .error (.config (.invalidProject (projectPath w)))

/-- The text of a member, when it counts as present. -/
def memberText? (members : List (String × Json)) (name : String) : Option String :=
  ((members.lookup name).filter fun v => (Doc.ofJson v).isTruthy).map Json.asText

/-- The sources in the members of a project file, by version in lower case. -/
def projectSources (members : List (String × Json)) : Entries String String :=
  match members.lookup "index_sources" with
  | some (.obj sources) =>
    Entries.ofPairs (sources.map fun p => (Text.lower p.1, p.2.asText))
  | _ => []

/-- The configuration with the settings of a project file. -/
def withProject (c : Config) (members : List (String × Json)) : Config :=
  { c with
    language := (memberText? members "default_language").getD c.language
    override := (memberText? members "override_index").or c.override
    sources := Entries.putAll c.sources (projectSources members) }

/-! ## All together -/

/-- The configuration with a language and an override that are asked for. -/
def withChoices (c : Config) (language override : Option String) : Config :=
  { c with language := language.getD c.language, override := override.or c.override }

/-- **The configuration in effect**, with the language and the override that
the command line asks for. -/
def effective (w : Workspace) (language override : Option String) : Outcome Config := do
  let c ← load w
  let members ← project w
  pure (((c.withProject members).withChoices (w.setting? "SNIPGEN_LANGUAGE")
    (w.setting? "SNIPGEN_INDEX")).withChoices language override)

/-- The configuration, once the cache it asks for is open. -/
def withCache (c : Config) (w : Workspace) : Outcome Config :=
  if w.canCache c.caching then .ok c else .error (.defect .file)

/-- The registry of the sources of a configuration. An empty override is
none. -/
def registry (c : Config) : Registry String Index :=
  Registry.ofSources c.sources (c.override.filter (· ≠ ""))

end Config

end ApiSnippets
