import ApiSnippets.Command.Markup
import ApiSnippets.Doc
import ApiSnippets.Json.Writer
/-!
# Consoles

Where a command puts its results and its remarks. Results go to the standard
output, which is no terminal, or to a file when there is one; remarks go to the
standard error, in colours unless these are off. The functions take the console
before and give the console after, and nothing that was written is ever taken
back, save that a file may be written afresh.

Not every text can be written: a terminal refuses tags that make no sense to
it, and a result may hold half of a surrogate pair. A console on which that has
happened is broken, and takes no more texts.
-/

namespace ApiSnippets

/-- How results and remarks are given. -/
structure ConsoleStyle where
  /-- Results in JSON. -/
  json : Bool := false
  /-- Warnings and errors only. -/
  quiet : Bool := false
  verbose : Bool := false
  /-- Results go to a file. -/
  toFile : Bool := false
  deriving DecidableEq, Repr

/-- What goes to the file: a text to be put after what is in the file, or in
its place. -/
structure Deposit where
  afresh : Bool
  text : String
  deriving DecidableEq, Repr

/-- What a command has written. -/
structure Console where
  style : ConsoleStyle
  /-- What becomes of tags in remarks; there are none when colours are off. -/
  markup : Option Markup := none
  output : String := ""
  errors : String := ""
  deposit : Option Deposit := none
  /-- Whether a text could not be written. -/
  broken : Bool := false

namespace Console

/-! ## Results -/

/-- A text that ends in a line break. -/
def closed (text : String) : String :=
  if Text.hasEnd "\n" text then text else text ++ "\n"

/-- A text as a result. -/
def data (text : String) (c : Console) : Console :=
  if c.broken then c
  else if c.style.toFile then
    let before := c.deposit.getD ⟨false, ""⟩
    if Utf8.isEncodable text then
      { c with deposit := some { before with text := before.text ++ closed text } }
    else { c with deposit := some before, broken := true }
  else if Utf8.isEncodable text then { c with output := c.output ++ text ++ "\n" }
  else { c with broken := true }

/-- Every text of a list as a result. -/
def dataAll (texts : List String) (c : Console) : Console :=
  texts.foldl (fun c t => c.data t) c

/-- A text as all that is in the file, which is emptied first. -/
def alone (text : String) (c : Console) : Console :=
  if c.broken then c
  else if Utf8.isEncodable text then { c with deposit := some ⟨true, closed text⟩ }
  else { c with deposit := some ⟨true, ""⟩, broken := true }

/-- The lines of a value without layout: a line for each member or item. -/
def plainLines : Json → List String
  | .obj members => members.map fun p => p.1 ++ "\t" ++ p.2.asText
  | .arr items =>
    items.map fun item =>
      match item with
      | .obj members => String.intercalate "\t" (members.map fun p => p.2.asText)
      | v => v.asText
  | v => [v.asText]

/-- The text of a value in JSON layout; a string is its own text. -/
def jsonText : Json → String
  | .str s => s
  | v => v.prettyPlain

/-- The text of a value in a file: containers in JSON layout. -/
def fileText : Json → String
  | .obj members => (Json.obj members).prettyPlain
  | .arr items => (Json.arr items).prettyPlain
  | v => v.asText

/-- A value as a result. -/
def value (v : Json) (c : Console) : Console :=
  if c.style.toFile then c.alone (fileText v)
  else if c.style.json then c.data (jsonText v)
  else c.dataAll (plainLines v)

/-- A snippet as a result. -/
def snippet (language text : String) (c : Console) : Console :=
  if c.style.toFile then c.alone text
  else if c.style.json then
    c.data (Json.obj [("language", .str language), ("snippet", .str text)]).prettyPlain
  else c.data (String.ofList (Text.trimEnd (· == '\n') text.toList))

/-- A row of a table as a JSON object. -/
def record (headers row : List String) : Json :=
  .obj (Entries.ofPairs (headers.zip (row.map .str)))

/-- A table as a result. -/
def table (headers : List String) (rows : List (List String)) (c : Console) : Console :=
  if c.style.json then c.data (Json.arr (rows.map (record headers))).prettyPlain
  else c.dataAll ((headers :: rows).map (String.intercalate "\t"))

/-! ## Remarks -/

/-- A text in which a surrogate is spelled as its escape. -/
def spelled (text : String) : String :=
  String.ofList <| text.toList.flatMap fun c =>
    match Utf8.surrogate? c with
    | some n => '\\' :: 'u' :: Text.hexFixed 4 n
    | none => [c]

/-- A line of the standard error. -/
def line (text : String) (c : Console) : Console :=
  { c with errors := c.errors ++ spelled text ++ "\n" }

/-- **A remark**, which has a form with tags and one without. -/
def remark (tagged plain : String) (c : Console) : Console :=
  if c.broken then c
  else
    match c.markup with
    | none => c.line plain
    | some markup =>
      match markup tagged with
      | some shown => c.line shown
      | none => { c with broken := true }

/-- A remark that may be left out. -/
def info (text : String) (c : Console) : Console :=
  if c.style.quiet then c else c.remark text text

/-- A remark on what was done. -/
def success (text : String) (c : Console) : Console :=
  if c.style.quiet then c else c.remark ("[green]" ++ text ++ "[/green]") text

/-- A warning. -/
def warning (text : String) (c : Console) : Console :=
  c.remark ("[yellow]Warning:[/yellow] " ++ text) ("Warning: " ++ text)

/-- An error. -/
def error (text : String) (c : Console) : Console :=
  c.remark ("[bold red]Error:[/bold red] " ++ text) ("Error: " ++ text)

/-- What to do next. -/
def suggest (text : String) (c : Console) : Console :=
  if c.style.quiet then c else c.remark ("[dim]→ " ++ text ++ "[/dim]") ("→ " ++ text)

/-- A remark for the curious. -/
def debug (text : String) (c : Console) : Console :=
  if c.style.verbose then c.remark ("[dim][debug] " ++ text ++ "[/dim]") ("[debug] " ++ text)
  else c

end Console

end ApiSnippets
