import ApiSnippets.Command.Generate
/-!
# The batch command

Snippets for every request file of a folder, in every language that is asked
for. The files are taken in the order of their names, and the descriptions are
loaded once for all of them. A file whose request fails is reported and left
out; it has no influence on the others. Only a defect ends a batch before its
last file: a snippet that cannot be written is one, and so is a report.
-/

namespace ApiSnippets

namespace Batch

/-- What the name of a request file ends with. -/
def requestSuffix : String := "-httpSnippet"

/-- The request files of a folder, by name. -/
def requestFiles (w : Workspace) (folder : String) : List String :=
  ((w.names folder).filter (Text.hasEnd requestSuffix)).mergeSort fun a b => decide (a ≤ b)

/-- The name of a request file without its ending. -/
def stem (file : String) : String :=
  String.ofList (file.toList.take (file.length - requestSuffix.length))

/-- The name of the file for a snippet. -/
def snippetFile (file language : String) : String :=
  stem file ++ "---" ++ language

/-- The identifiers of the languages in a list with commas; the language of
the configuration when nothing is asked for. -/
def languageIds (config : Config) (languages : Option String) : Outcome (List String) :=
  let names :=
    match languages.filter (· ≠ "") with
    | some names => (Text.pieces ',' names).map Text.stripped
    | none => [config.language]
  Outcome.mapAll (fun name => (Language.find name).map (·.id)) (names.filter (· ≠ ""))

/-! ## One file -/

/-- The request in a request file. -/
def request (file : String) (t : FileText) : Outcome HttpRequest :=
  match t with
  | .text s => HttpRequest.parse s
  | _ => .error (.usage (.unreadableRequest file))

/-- How far a batch has come. -/
structure Progress where
  registry : Registry String Index
  workspace : Workspace
  /-- What was reported. -/
  console : Console
  /-- The names and texts of the files that were written. -/
  written : List (String × String) := []
  /-- The names of the files whose requests failed, and why. -/
  failures : List (String × Fault) := []
  /-- Whether the batch has ended in a defect. -/
  crashed : Bool := false

/-- The snippets for a request, by language, and how far the batch has come
with them. -/
def snippets (caching : Caching) (languages : List String) (r : Outcome HttpRequest)
    (p : Progress) : Except Fault (List (String × String)) × Progress :=
  match r with
  | .error e => (.error e, p)
  | .ok r =>
    let (result, registry, w) :=
      Resolution.resolveIn (Source.index caching) p.registry r p.workspace
    (Snippet.generateMany result.outcome languages, { p with registry := registry, workspace := w })

/-- A snippet written into its file, which is left empty when the snippet has no
octets. -/
def writeSnippet (folder : String) (p : Progress) (name text : String) : Progress :=
  if p.crashed then p
  else
    let path := folder ++ "/" ++ name
    if Utf8.isEncodable text then
      match p.workspace.write? path (Utf8.encode text.toList) with
      | some w => { p with workspace := w, written := p.written ++ [(name, text)] }
      | none => { p with crashed := true }
    else { p with workspace := (p.workspace.write? path []).getD p.workspace, crashed := true }

/-- A request that fails, reported. -/
def report (p : Progress) (file : String) (e : Fault) : Progress :=
  let c := p.console.error (file ++ ": " ++ e.message)
  { p with console := c, failures := p.failures ++ [(file, e)], crashed := c.broken }

/-- The batch after one more file. -/
def step (caching : Caching) (languages : List String) (folder : String) (p : Progress)
    (file : String) : Progress :=
  if p.crashed then p
  else
    match snippets caching languages (request file (p.workspace.text (folder ++ "/" ++ file))) p with
    | (.ok texts, p) =>
      texts.foldl (fun p t => writeSnippet folder p (snippetFile file t.1) t.2) p
    | (.error (.defect _), p) => { p with crashed := true }
    | (.error e, p) => report p file e

/-! ## All files -/

/-- **A batch**: every file in turn. -/
def run (config : Config) (languages : List String) (folder : String) (files : List String)
    (c : Console) (w : Workspace) : Progress :=
  files.foldl (step config.caching languages folder)
    { registry := config.registry, workspace := w, console := c }

/-- The remark on a folder without request files. -/
def noFiles (folder : String) : String :=
  "No *-httpSnippet files in " ++ folder

/-- The remark on the snippets that were written. -/
def written (snippets requests : Nat) : String :=
  "Wrote " ++ toString snippets ++ " snippet(s) from " ++ toString requests ++ " request(s)"

/-- The remark on requests that failed. -/
def withErrors (requests : Nat) : String :=
  toString requests ++ " request(s) processed with errors"

/-- The end of a batch of a number of files. The exit code is that of the
first failure. -/
def finish (count : Nat) (p : Progress) : Ended :=
  if p.crashed then .crash p.console p.workspace
  else
    let c := p.console.success (written p.written.length count)
    match p.failures with
    | [] => .well c p.workspace
    | (_, e) :: _ => .close e.exitCode (c.info (withErrors count)) p.workspace

end Batch

namespace Command

/-- **The snippets for a folder of requests.** -/
def runBatch (i : Invocation) (folder : String) (languages : Option String) (c : Console)
    (w : Workspace) : Ended :=
  let folder := Files.tidy folder
  let files := Batch.requestFiles w folder
  if files.isEmpty then .well (c.warning (Batch.noFiles folder)) w
  else
    match Config.effective w none i.index >>= (·.withCache w) with
    | .error e => .refuse e c w
    | .ok config =>
      let c := announce config c
      if c.broken then .crash c w
      else
        match Batch.languageIds config languages with
        | .error e => .refuse e c w
        | .ok ids => Batch.finish files.length (Batch.run config ids folder files c w)

end Command

end ApiSnippets
