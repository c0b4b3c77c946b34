import ApiSnippets.Text.Cut
import ApiSnippets.Text.Utf8
/-!
# Quoted texts

The ways a text is written between quotes: with JSON escapes between double
quotes, with the two escapes of a single-quoted string, as one word of a
shell, and the way messages show a text.
-/

namespace ApiSnippets

namespace Text

/-- A hexadecimal digit in lower case. -/
def hexDigit (n : Nat) : Char :=
  if n < 10 then Char.ofNat (n + 48) else Char.ofNat (n + 87)

/-- A number in hexadecimal with exactly this many digits. -/
def hexFixed : Nat → Nat → List Char
  | 0, _ => []
  | width + 1, n => hexFixed width (n / 16) ++ [hexDigit (n % 16)]

/-! ## Double quotes -/

/-- The JSON escape of a character that has a short one. -/
def shortEscape? (c : Char) : Option Char :=
  if c = '"' then some '"'
  else if c = '\\' then some '\\'
  else if c = '\n' then some 'n'
  else if c = '\r' then some 'r'
  else if c = '\t' then some 't'
  else if c.toNat = 8 then some 'b'
  else if c.toNat = 12 then some 'f'
  else none

/-- A character inside double quotes: only quotes, backslashes and control
characters are escaped. -/
def escapeDouble (c : Char) : List Char :=
  match shortEscape? c with
  | some e => ['\\', e]
  | none => if c.toNat < 32 then '\\' :: 'u' :: hexFixed 4 c.toNat else [c]

/-- The text between double quotes. -/
def doubleQuotedChars (cs : List Char) : List Char :=
  '"' :: cs.flatMap escapeDouble ++ ['"']

/-- The text between double quotes. -/
def doubleQuoted (s : String) : String :=
  String.ofList (doubleQuotedChars s.toList)

/-- A character inside double quotes, written in ASCII: a character beyond
the sixteen-bit range takes two escapes. -/
def escapeAscii (c : Char) : List Char :=
  match shortEscape? c with
  | some e => ['\\', e]
  | none =>
    if 32 ≤ c.toNat ∧ c.toNat < 127 then [c]
    else if c.toNat < 0x10000 then '\\' :: 'u' :: hexFixed 4 c.toNat
    else
      let n := c.toNat - 0x10000
      '\\' :: 'u' :: hexFixed 4 (0xD800 + n / 0x400) ++
        '\\' :: 'u' :: hexFixed 4 (0xDC00 + n % 0x400)

/-- The text between double quotes, in ASCII. -/
def asciiQuoted (s : String) : String :=
  String.ofList ('"' :: s.toList.flatMap escapeAscii ++ ['"'])

/-! ## Single quotes -/

/-- A character between single quotes: the quote and the backslash are
escaped. -/
def escapeSingle (c : Char) : List Char :=
  if c = '\\' ∨ c = '\'' then ['\\', c] else [c]

/-- The text between single quotes, where a backslash escapes itself and the
quote only. -/
def singleQuoted (s : String) : String :=
  String.ofList ('\'' :: s.toList.flatMap escapeSingle ++ ['\''])

/-! ## Shell words -/

/-- Characters a shell takes as they are. -/
def isShellSafe (c : Char) : Bool :=
  isAsciiLetter c || (decide ('0' ≤ c) && decide (c ≤ '9')) || "_@%+=:,./-".toList.contains c

/-- The text as one word of a shell: unchanged when every character is safe,
otherwise between single quotes, with a quote of the text between double
quotes of its own. -/
def shellWord (s : String) : String :=
  if s.isEmpty then "''"
  else if s.toList.all isShellSafe then s
  else String.ofList ('\'' :: replaceChar '\'' "'\"'\"'".toList s.toList ++ ['\''])

/-! ## Texts in messages -/

/-- A character of a text shown with this quote: named escapes for tab, line
feed and carriage return, numeric ones for what is not printable. -/
def escapeShown (quote c : Char) : List Char :=
  if c = quote ∨ c = '\\' then ['\\', c]
  else if c = '\t' then ['\\', 't']
  else if c = '\n' then ['\\', 'n']
  else if c = '\r' then ['\\', 'r']
  else if isPrintable c then [c]
  else if c.toNat < 0x100 then '\\' :: 'x' :: hexFixed 2 c.toNat
  else if c.toNat < 0x10000 then '\\' :: 'u' :: hexFixed 4 c.toNat
  else '\\' :: 'U' :: hexFixed 8 c.toNat

/-- The quote a text is shown with: single, unless the text holds a single
quote and no double one. -/
def shownQuote (cs : List Char) : Char :=
  if cs.contains '\'' && !cs.contains '"' then '"' else '\''

/-- A text the way messages show it. -/
def shown (s : String) : String :=
  let quote := shownQuote s.toList
  String.ofList (quote :: s.toList.flatMap (escapeShown quote) ++ [quote])

/-- An octet of a sequence shown with this quote: outside ASCII nothing is
printable. -/
def escapeOctet (quote : Char) (b : UInt8) : List Char :=
  if b < 127 then escapeShown quote (Char.ofNat b.toNat) else '\\' :: 'x' :: hexFixed 2 b.toNat

/-- A sequence of octets the way messages show it. -/
def shownOctets (bs : Bytes) : String :=
  let quote := shownQuote (bs.map fun b => Char.ofNat b.toNat)
  String.ofList ('b' :: quote :: bs.flatMap (escapeOctet quote) ++ [quote])

end Text

end ApiSnippets
