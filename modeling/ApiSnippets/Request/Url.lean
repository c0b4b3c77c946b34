import ApiSnippets.Fault
import ApiSnippets.Text.Class
import ApiSnippets.Text.Cut
import ApiSnippets.Text.Percent
/-!
# URLs

The parts of a URL: scheme, authority, path, query and fragment. Every text
has such parts, with one exception. An authority whose brackets do not hold
an IP address, or which contains a compatibility form of one of the
characters that delimit it, is a defect.
-/

namespace ApiSnippets

/-- The path and the query of a URL. -/
structure Url where
  path : String
  query : String
  deriving DecidableEq, Repr

namespace Url

/-! ## Hosts in brackets -/

/-- A hexadecimal digit. -/
def isHexDigit (c : Char) : Bool :=
  (Text.hexValue? c).isSome

/-- A group of an IPv6 address: one to four hexadecimal digits. -/
def isHextet (cs : List Char) : Bool :=
  !cs.isEmpty && decide (cs.length ≤ 4) && cs.all isHexDigit

/-- A number of an IPv4 address: at most 255, without leading zeros. -/
def isOctet (cs : List Char) : Bool :=
  !cs.isEmpty && decide (cs.length ≤ 3) && cs.all Char.isDigit &&
    (cs.length == 1 || cs.head? != some '0') &&
    decide (cs.foldl (fun n c => 10 * n + (c.toNat - 48)) 0 ≤ 255)

/-- An IPv4 address. -/
def isFourPart (cs : List Char) : Bool :=
  let numbers := Text.splitAll '.' cs
  numbers.length == 4 && numbers.all isOctet

/-- The groups with an IPv4 address at their end written as two groups. An
end with a dot that is no address leaves nothing. -/
def expandTail (groups : List (List Char)) : List (List Char) :=
  match groups.getLast? with
  | some last =>
    if last.contains '.' then
      if isFourPart last then groups.dropLast ++ [['0'], ['0']] else []
    else groups
  | none => []

/-- The number of groups on one side of a gap; none when they are malformed.
An address that begins or ends with its gap has no group on that side. -/
def sideGroups? (groups : List (List Char)) : Option Nat :=
  if groups = [[]] then some 0
  else if groups.all isHextet then some groups.length
  else none

/-- Groups that make an IPv6 address: eight of them, or at most seven around
one gap. -/
def areEightGroups : List (List Char) → Bool
  | [] => false
  | first :: more =>
    let before := first :: more.takeWhile (!·.isEmpty)
    match more.dropWhile (!·.isEmpty) with
    | [] => before.length == 8 && before.all isHextet
    | [_] => false
    | _ :: after =>
      match sideGroups? before, sideGroups? after with
      | some m, some n => decide (m + n ≤ 7)
      | _, _ => false

/-- An IPv6 address, with or without a zone. -/
def isSixPart (cs : List Char) : Bool :=
  match Text.cutAt '%' cs with
  | (address, none) => areEightGroups (expandTail (Text.splitAll ':' address))
  | (address, some zone) =>
    !zone.isEmpty && !zone.contains '%' &&
      areEightGroups (expandTail (Text.splitAll ':' address))

/-- An address of a later version: `v`, a hexadecimal version, a dot and
something on the same line. -/
def isFuture : List Char → Bool
  | 'v' :: cs =>
    match cs.dropWhile isHexDigit with
    | '.' :: rest => !(cs.takeWhile isHexDigit).isEmpty && !rest.isEmpty && !rest.contains '\n'
    | _ => false
  | _ => false

/-- What may stand between brackets. -/
def isBracketHost (cs : List Char) : Bool :=
  if cs.head? = some 'v' then isFuture cs else !cs.contains '/' && isSixPart cs

/-! ## Authorities -/

/-- Characters whose compatibility form contains a delimiter. -/
def delimiterForms : List Char :=
  ['\u2047', '\u2048', '\u2049', '\u2100', '\u2101', '\u2105', '\u2106', '\u2a74', '\ufe13', '\ufe16',
    '\ufe55', '\ufe56', '\ufe5f', '\ufe6b', '\uff03', '\uff0f', '\uff1a', '\uff1f', '\uff20']

/-- Whether a host and port, in an authority with brackets, are well formed:
nothing stands before an opening bracket, and a port at most after the closing
one. Where the brackets are elsewhere, the host is held to the same rule. -/
def isHostAndPort (cs : List Char) : Bool :=
  match Text.cutAt '[' cs with
  | (before, some bracketed) =>
    let (host, after) := Text.cutAt ']' bracketed
    before.isEmpty && (after.getD []).head?.all (· == ':') && isBracketHost host
  | (_, none) => isBracketHost (Text.cutAt ':' cs).1

/-- Whether an authority can be told apart from the rest of its URL. -/
def isAuthority (cs : List Char) : Bool :=
  let bracketed :=
    match cs.contains '[', cs.contains ']' with
    | true, true => isHostAndPort (Text.afterLast '@' cs)
    | false, false => true
    | _, _ => false
  bracketed && !cs.any delimiterForms.contains

/-! ## Parts -/

/-- A character that may stand in a scheme. -/
def isSchemeChar (c : Char) : Bool :=
  Text.isAsciiLetter c || c.isDigit || c == '+' || c == '-' || c == '.'

/-- What follows the scheme, everything when there is none. -/
def afterScheme (cs : List Char) : List Char :=
  match Text.cutAt ':' cs with
  | (scheme, some rest) =>
    if scheme.head?.any Text.isAsciiLetter && scheme.all isSchemeChar then rest else cs
  | (_, none) => cs

/-- Whether a character ends the authority. -/
def endsAuthority (c : Char) : Bool := c == '/' || c == '?' || c == '#'

/-- The authority after two slashes, and what follows it. -/
def cutAuthority : List Char → List Char × List Char
  | '/' :: '/' :: cs =>
    (cs.takeWhile fun c => !endsAuthority c, cs.dropWhile fun c => !endsAuthority c)
  | cs => ([], cs)

/-- A tab or a line end. -/
def isTabOrBreak (c : Char) : Bool := c == '\t' || c == '\r' || c == '\n'

/-- The text without control characters and spaces in front and without tabs
and line ends anywhere. -/
def cleaned (cs : List Char) : List Char :=
  (cs.dropWhile fun c => decide (c.toNat ≤ 32)).filter fun c => !isTabOrBreak c

/-- The path and the query of a URL. -/
def parse (text : String) : Outcome Url :=
  let (authority, rest) := cutAuthority (afterScheme (cleaned text.toList))
  if isAuthority authority then
    let (path, query) := Text.cutAt '?' (Text.cutAt '#' rest).1
    .ok ⟨String.ofList path, String.ofList (query.getD [])⟩
  else .error (.defect .value)

end Url

end ApiSnippets
