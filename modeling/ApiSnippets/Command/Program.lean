import ApiSnippets.Command.Batch
import ApiSnippets.Command.Settings
/-!
# The program

From a command line and a workspace to the end of the command. `Program.run`
is all of the program: what is outside it gathers the workspace and puts it
back.
-/

namespace ApiSnippets

namespace Program

/-! ## Screens -/

/-- The name and the version of the program. -/
def versionText : String := "snipgen 0.3.0"

/-- How the program is used. -/
def usage : String :=
  String.intercalate "\n" [
    "Usage: snipgen [OPTIONS] COMMAND [ARGS]...",
    "",
    "Generate SDK code snippets from recorded Microsoft Graph HTTP requests.",
    "",
    "Options:",
    "  --version           Show version and exit.",
    "  --index SOURCE      OpenAPI document used for every API version.",
    "  --json              JSON output format.",
    "  --plain             Plain text output.",
    "  --no-color          Disable color output.",
    "  -q, --quiet         Suppress non-essential output.",
    "  -v, --verbose       Enable debug output.",
    "  -o, --output FILE   Output file path.",
    "  --help              Show this message and exit.",
    "",
    "Commands:",
    "  generate [FILE] [-l LANGUAGE]       Generate a snippet for one recorded HTTP request.",
    "  batch FOLDER [-l LANGUAGES]         Generate snippets for every *-httpSnippet file.",
    "  languages                           List the supported target languages.",
    "  inspect [FILE]                      Show how a request resolves.",
    "  config show                         Show the effective configuration.",
    "  config set-source VERSION SOURCE    Set the OpenAPI document used for an API version.",
    "  config set KEY VALUE                Set a configuration value.",
    "  cache stats                         Show cache statistics.",
    "  cache clear                         Remove every cached document."]

/-- The end of a command line that asks for help. -/
def help (w : Workspace) : Ended :=
  ⟨0, { style := {}, output := usage ++ "\n" }, w, true⟩

/-- The end of a command line that is wrong. -/
def misuse (w : Workspace) : Ended :=
  ⟨2, { style := {}, errors := usage ++ "\n" }, w, true⟩

/-! ## Commands -/

/-- The languages with their aliases and names. -/
def languageRows : List (List String) :=
  Language.all.map fun l =>
    [l.id, if l.aliases.isEmpty then "-" else String.intercalate ", " l.aliases, l.displayName]

/-- The end of a command. -/
def perform (i : Invocation) (c : Console) (w : Workspace) : Ended :=
  match i.command with
  | .generate file language => Command.runGenerate i file language c w
  | .batch folder languages =>
    if Text.hasChar '\x00' folder then .refuse (.defect .value) c w
    else if folder != "" && w.isFolder folder then Command.runBatch i folder languages c w
    else misuse w
  | .languages => .well (c.table ["Language", "Aliases", "Name"] languageRows) w
  | .inspect file => Command.runInspect i file c w
  | .showConfig => Command.runShowConfig c w
  | .setSource version source => Command.runSetSource version source c w
  | .setConfig key value => Command.runSetConfig key value c w
  | .cacheStats => Command.runCacheStats c w
  | .cacheClear => Command.runCacheClear c w

/-- The console of an invocation: tags are for a terminal with colours. -/
def console (i : Invocation) (w : Workspace) : Console :=
  { style := i.style, markup := if i.colourless || w.isColourless then none else some w.markup }

/-- **The end of a command line** in a workspace. -/
def run (args : List String) (w : Workspace) : Ended :=
  match Invocation.ofArguments args with
  | .run i => (perform i (console i w) w).settle i.target
  | .version => .well { style := {}, output := versionText ++ "\n" } w
  | .help => help w
  | .misuse => misuse w

end Program

end ApiSnippets
