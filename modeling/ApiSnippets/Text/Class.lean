import ApiSnippets.Text.ClassTable
/-!
# Character classes

Which characters are white space, digits, word characters or printable. An
ASCII character is decided by its rule alone; the tables answer for the rest.
-/

namespace ApiSnippets

namespace Text

/-- White space: the six ASCII blanks, the four ASCII separators and the
Unicode spaces. -/
def isBlank (c : Char) : Bool :=
  if c.toNat < 128 then
    c.toNat == 32 || (decide (9 ≤ c.toNat) && decide (c.toNat ≤ 13)) ||
      (decide (28 ≤ c.toNat) && decide (c.toNat ≤ 31))
  else Table.mem Table.blankBounds c.toNat

/-- A digit, superscripts and circled digits included. -/
def isDigit (c : Char) : Bool :=
  if c.toNat < 128 then decide ('0' ≤ c) && decide (c ≤ '9')
  else Table.mem Table.digitBounds c.toNat

/-- An ASCII letter. -/
def isAsciiLetter (c : Char) : Bool :=
  (decide ('a' ≤ c) && decide (c ≤ 'z')) || (decide ('A' ≤ c) && decide (c ≤ 'Z'))

/-- A letter, a number of any kind or an underscore. -/
def isWord (c : Char) : Bool :=
  if c.toNat < 128 then isAsciiLetter c || isDigit c || c == '_'
  else Table.mem Table.wordBounds c.toNat

/-- Shown as itself inside a quoted text. -/
def isPrintable (c : Char) : Bool :=
  if c.toNat < 128 then decide (32 ≤ c.toNat) && decide (c.toNat < 127)
  else Table.mem Table.printableBounds c.toNat

/-- The value of a decimal digit of any script. Superscripts have none,
although they are digits. -/
def decimalValue? (c : Char) : Option Nat :=
  if c.toNat < 128 then
    if isDigit c then some (c.toNat - 48) else none
  else
    (Table.decimalZeros.find? fun z => decide (z ≤ c.toNat) && decide (c.toNat < z + 10)).map
      (c.toNat - ·)

end Text

end ApiSnippets
