import ApiSnippets.Number.Text
import ApiSnippets.Request.Url
import ApiSnippets.Text.Case
/-!
# Addresses of documents

Which URLs a document can be asked for at. A URL of HTTP has an authority: a
user that may be missing, a host and a port that may be missing. The host is
an IP address when it looks like one, and the port is an integer.
-/

namespace ApiSnippets

namespace Address

/-! ## Hosts -/

/-- The most characters of a URL. -/
def maxLength : Nat := 65536

/-- The most characters between two dots of a host. -/
def maxLabel : Nat := 63

/-- Whether some digits and `n` times a character with digits after it make
up a text. -/
def hasNumbers : Nat → List Char → Bool
  | 0, cs => !cs.isEmpty && cs.all Number.isNumeral
  | n + 1, c :: d :: cs =>
    Number.isNumeral c && (hasNumbers n cs || hasNumbers (n + 1) (d :: cs))
  | _ + 1, _ => false

/-- A character that separates the labels of a host. -/
def isDot (c : Char) : Bool :=
  c == '.' || c == '\u3002' || c == '\uFF0E' || c == '\uFF61'

/-- A character of a label. -/
def isLabelChar (c : Char) : Bool :=
  c == '-' || (Text.isWord c && c != '_' && Text.lowerChar c == [c])

/-- A label: not too long, no hyphen at an end or in the third and fourth
place. -/
def isLabel (cs : List Char) : Bool :=
  !cs.isEmpty && decide (cs.length ≤ maxLabel) && cs.all isLabelChar &&
    cs.head? != some '-' && cs.getLast? != some '-' && (cs.drop 2).take 2 != ['-', '-']

/-- The labels of a host; a dot at its end is of no account. -/
def labels (host : List Char) : List (List Char) :=
  let pieces := Text.splitAll '.' (host.map fun c => if isDot c then '.' else c)
  if pieces.getLast? = some [] then pieces.dropLast else pieces

/-- A host with letters beyond ASCII. -/
def isNamedHost (host : List Char) : Bool :=
  let labels := labels (Text.lowerChars host)
  !labels.isEmpty && labels.all isLabel

/-- A host in brackets, if it is one: what is between them. -/
def bracketed? : List Char → Option (List Char)
  | '[' :: cs => if cs.getLast? = some ']' then some cs.dropLast else none
  | _ => none

/-- Whether there can be a host of this name. -/
def isHost (host : List Char) : Bool :=
  if hasNumbers 3 host then Url.isFourPart host
  else
    match bracketed? host with
    | some address => Url.isSixPart address
    | none => host.all (fun c => decide (c.toNat < 128)) || isNamedHost host

/-! ## URLs -/

/-- A host, brackets included, and what follows it. -/
def cutHost (cs : List Char) : List Char × List Char :=
  if cs.head? = some '[' ∧ ']' ∈ cs then
    (Text.beforeLast ']' cs ++ [']'], Text.afterLast ']' cs)
  else (cs.takeWhile (· != ':'), cs.dropWhile (· != ':'))

/-- The port behind a host. -/
def isPort (cs : List Char) : Bool :=
  let port := if cs.head? = some ':' then cs.drop 1 else cs
  port.isEmpty || (Number.lenientInteger? port).isSome

/-- Whether an authority can be asked for documents. -/
def isAuthority (cs : List Char) : Bool :=
  let (host, port) := cutHost (Text.afterLast '@' cs)
  isHost host && isPort port

/-- A control character. -/
def isControl (c : Char) : Bool :=
  decide (c.toNat < 32) || c.toNat == 127

/-- **Whether a document can be asked for** at a URL. -/
def isValid (url : String) : Bool :=
  let cs := url.toList
  decide (cs.length ≤ maxLength) && !cs.any isControl &&
    isAuthority (Url.cutAuthority (Url.afterScheme cs)).1

end Address

end ApiSnippets
