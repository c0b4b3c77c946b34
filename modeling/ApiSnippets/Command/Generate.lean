import ApiSnippets.Command.Ended
import ApiSnippets.Command.Invocation
import ApiSnippets.Resolution.Details
import ApiSnippets.Settings.Effective
/-!
# Commands on one request

`generate` writes the snippet for a request, `inspect` shows how it resolves.
Both read the request first, then the configuration; the description is
loaded last, once it is known that the language exists.
-/

namespace ApiSnippets

namespace Command

/-! ## Reading -/

/-- The text of the request in a file, or in the standard input when there is
no file or its name is a dash. -/
def requestText (file : Option String) (w : Workspace) : Outcome String × Workspace :=
  match file.filter (· ≠ "-") with
  | none =>
    match w.readInput with
    | (.text s, w) => (.ok s, w)
    | (_, w) => (.error (.defect .encoding), w)
  | some path =>
    if Text.hasChar '\x00' path then (.error (.defect .value), w)
    else
      match w.text path with
      | .text s => (.ok s, w)
      | .absent => (.error (.usage (.unreadableRequest path)), w)
      | .garbled => (.error (.defect .encoding), w)

/-- The request and the configuration in effect. -/
def prepare (i : Invocation) (file language : Option String) (w : Workspace) :
    Outcome (HttpRequest × Config) × Workspace :=
  let (text, w) := requestText file w
  let prepared : Outcome (HttpRequest × Config) := do
    let s ← text
    let r ← HttpRequest.parse s
    let config ← Config.effective w language i.index
    pure (r, ← config.withCache w)
  (prepared, w)

/-- The sources a command goes by, for the curious. -/
def announce (config : Config) (c : Console) : Console :=
  let c := c.debug ("Index sources: " ++ (Json.obj (config.sources.map fun p => (p.1, .str p.2))).asText)
  match config.override.filter (· ≠ "") with
  | some source => c.debug ("Override index: " ++ source)
  | none => c

/-! ## Answering -/

/-- A request resolved with the descriptions of a configuration. -/
def resolved (config : Config) (r : HttpRequest) (w : Workspace) :
    Outcome ResolvedRequest × Workspace :=
  let (result, _, w) := Resolution.resolveIn (Source.index config.caching) config.registry r w
  (result.outcome, w)

/-- The snippet for a request in the language of a configuration, with the
identifier of the language. -/
def snippetFor (config : Config) (r : HttpRequest) (w : Workspace) :
    Outcome (String × String) × Workspace :=
  match Language.find config.language with
  | .error e => (.error e, w)
  | .ok l =>
    let (result, w) := resolved config r w
    (result >>= fun r => (Snippet.generate l r).map fun text => (l.id, text), w)

/-- **The snippet for a request.** -/
def runGenerate (i : Invocation) (file language : Option String) (c : Console) (w : Workspace) :
    Ended :=
  match prepare i file language w with
  | (.error e, w) => .refuse e c w
  | (.ok (r, config), w) =>
    let c := announce config c
    if c.broken then .crash c w
    else
      match snippetFor config r w with
      | (.ok (id, text), w) => .well (c.snippet id text) w
      | (.error e, w) => .refuse e c w

/-- **How a request resolves.** -/
def runInspect (i : Invocation) (file : Option String) (c : Console) (w : Workspace) : Ended :=
  match prepare i file none w with
  | (.error e, w) => .refuse e c w
  | (.ok (r, config), w) =>
    let c := announce config c
    if c.broken then .crash c w
    else
      match resolved config r w with
      | (.ok r, w) =>
        .well (if c.style.json then c.value r.details else c.table ["Field", "Value"] r.rows) w
      | (.error e, w) => .refuse e c w

end Command

end ApiSnippets
