import ApiSnippets.Schema.Address
import ApiSnippets.Schema.Document
import ApiSnippets.Schema.Index
import ApiSnippets.Text.Charset
import ApiSnippets.Workspace
/-!
# Sources of description documents

A source names where a description comes from: the standard input, a URL or a
file. `Source.load` reads the document; a document from a URL is looked up in
the cache first and kept there afterwards. Files and the standard input have
nothing to do with the cache.
-/

namespace ApiSnippets

/-- Where a description comes from. -/
inductive Source where
  | input
  | url (url : String)
  | file (path : String)
  deriving DecidableEq, Repr

namespace Source

/-- The source a text names. -/
def ofText (s : String) : Source :=
  if s == "-" then .input
  else if Text.hasStart "http://" s || Text.hasStart "https://" s then .url s
  else .file s

/-! ## The three sources -/

/-- The document in the standard input. -/
def loadInput (w : Workspace) : Outcome Doc × Workspace :=
  match w.readInput with
  | (.text s, w) =>
    if Text.isBlankText s.toList then (.error (.index .emptyInput), w)
    else (Doc.parse .none s, w)
  | (_, w) => (.error (.defect .encoding), w)

/-- The format of a reply: that of its content type, or of the URL. -/
def replyHint (contentType url : String) : FormatHint :=
  if Text.contains "json" contentType then .json
  else if Text.contains "yaml" contentType || Text.contains "yml" contentType then .yaml
  else if Text.hasEnd ".yaml" url || Text.hasEnd ".yml" url then .yaml
  else .none

/-- The document in the reply to a request for a URL. -/
def ofReply (url : String) : Reply → Outcome Doc
  | .failure reason => .error (.index (.unreachable url reason))
  | .response status contentType content =>
    if 200 ≤ status ∧ status < 300 then do
      let text ← (Charset.ofContentType contentType).read content
      Doc.parse (replyHint contentType url) (String.ofList text)
    else .error (.index (.status status url))

/-- The document at a URL. -/
def download (url : String) (w : Workspace) : Outcome Doc × Workspace :=
  (if Address.isValid url then ofReply url (w.network url) else .error (.defect .address),
    { w with downloads := w.downloads ++ [url] })

/-- The format of a file, by the ending of its name. -/
def fileHint (path : String) : FormatHint :=
  match Text.lower (Files.suffix path) with
  | ".json" => .json
  | ".yaml" => .yaml
  | ".yml" => .yaml
  | _ => .none

/-- The text of the file at a path. -/
def fileText (path : String) (w : Workspace) : Outcome String := do
  let place := Files.tidy (← w.expand (Files.tidy path))
  if w.isOverlong place then .error (.defect .file)
  else
    match w.text place with
    | .absent => .error (.index (.notFound path))
    | .garbled => .error (.defect .encoding)
    | .text s => .ok s

/-- The document in a file. -/
def loadFile (path : String) (w : Workspace) : Outcome Doc := do
  let s ← fileText path w
  if Text.isBlankText s.toList then .error (.index (.emptyFile path))
  else Doc.parse (fileHint path) s

/-! ## Loading -/

/-- The document at a URL, from the cache when it is there. -/
def loadUrl (caching : Caching) (url : String) (w : Workspace) : Outcome Doc × Workspace :=
  match caching.get? url w.documents with
  | some d => (.ok d, w)
  | none =>
    match download url w with
    | (.ok d, w) => (.ok d, { w with documents := caching.put url d w.documents })
    | (.error e, w) => (.error e, w)

/-- **The document of a source**, and the workspace after it is read. -/
def load (caching : Caching) (source : String) (w : Workspace) : Outcome Doc × Workspace :=
  match ofText source with
  | .input => loadInput w
  | .url address => loadUrl caching address w
  | .file path => (loadFile path w, w)

/-- The index of the document of a source. -/
def index (caching : Caching) (source : String) (w : Workspace) : Outcome Index × Workspace :=
  let (d, w) := load caching source w
  (d >>= fun d => Index.ofDoc d true, w)

end Source

end ApiSnippets
