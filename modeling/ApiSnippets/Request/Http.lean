import ApiSnippets.Fault
import ApiSnippets.Request.Method
import ApiSnippets.Text.Case
import ApiSnippets.Text.Cut
import ApiSnippets.Text.Utf8
/-!
# Recorded requests

A recorded request and its reading from HTTP message text: a request line,
header lines, a blank line and the body. A target that is no full URL is
completed with the first `Host` header.
-/

namespace ApiSnippets

/-- A header as it was sent. -/
structure Header where
  name : String
  value : String
  deriving DecidableEq, Repr

/-- A recorded request. -/
structure HttpRequest where
  method : Method
  url : String
  headers : List Header := []
  body : Option Bytes := none

namespace HttpRequest

/-- The value of the first `Content-Type` header. -/
def contentType? (r : HttpRequest) : Option String :=
  (r.headers.find? fun h => Text.lower h.name == "content-type").map (·.value)

/-! ## Reading -/

/-- The host of a target without one. -/
def defaultHost : String := "graph.microsoft.com"

/-- The part before the first empty line and the part after it. -/
def cutAtBlankLine : List Char → List Char × Option (List Char)
  | [] => ([], none)
  | '\n' :: '\n' :: cs => ([], some cs)
  | c :: cs =>
    let (head, body) := cutAtBlankLine cs
    (c :: head, body)

/-- The text with line feeds as its only line ends and without byte order
marks and blanks in front. -/
def normalize (cs : List Char) : List Char :=
  (Text.replacePair '\r' '\n' ['\n'] cs).dropWhile fun c =>
    c == '\uFEFF' || c == ' ' || c == '\t' || c == '\n'

/-- The method and the target of a request line. -/
def requestLine (line : List Char) : Outcome (Method × List Char) :=
  match Text.blankFields line with
  | token :: target :: more =>
    if 1 < more.length then .error (.usage (.requestLine (String.ofList line)))
    else
      match Method.ofName? (Text.lower (String.ofList token)) with
      | some m => .ok (m, target)
      | none => .error (.usage (.method (String.ofList token)))
  | _ => .error (.usage (.requestLine (String.ofList line)))

/-- The header of a line, none for a blank line. -/
def headerLine (line : List Char) : Outcome (Option Header) :=
  if Text.isBlankText line then .ok none
  else
    match Text.cutAt ':' line with
    | (name, some value) =>
      if Text.isBlankText name then .error (.usage (.headerLine (String.ofList line)))
      else .ok (some ⟨String.ofList (Text.strip name), String.ofList (Text.strip value)⟩)
    | (_, none) => .error (.usage (.headerLine (String.ofList line)))

/-- The headers of lines. -/
def headerLines : List (List Char) → Outcome (List Header)
  | [] => .ok []
  | line :: lines => do
    let h ← headerLine line
    let hs ← headerLines lines
    pure (h.toList ++ hs)

/-- Whether a target is a full URL. -/
def isAbsolute (target : List Char) : Bool :=
  let t := Text.lowerChars target
  "http://".toList.isPrefixOf t || "https://".toList.isPrefixOf t

/-- The URL of a target, completed with a host when it has none. -/
def urlOf (headers : List Header) (target : List Char) : String :=
  if isAbsolute target then String.ofList target
  else
    let host := ((headers.find? fun h => Text.lower h.name == "host").map (·.value)).getD defaultHost
    "https://" ++ host ++ "/" ++ String.ofList (target.dropWhile (· == '/'))

/-- The octets of a body without the line feeds around it, none when it is
blank. -/
def payload (body : Option (List Char)) : Option Bytes :=
  let text := Text.trim (· == '\n') (body.getD [])
  if Text.isBlankText text then none else some (Utf8.encode text)

/-- The request a message text records. -/
def parse (text : String) : Outcome HttpRequest :=
  let (head, body) := cutAtBlankLine (normalize text.toList)
  match Text.splitAll '\n' head with
  | [] => .error (.usage .emptyRequest)
  | first :: lines =>
    if Text.isBlankText first then .error (.usage .emptyRequest)
    else do
      let (method, target) ← requestLine first
      let headers ← headerLines lines
      pure ⟨method, urlOf headers target, headers, payload body⟩

end HttpRequest

end ApiSnippets
