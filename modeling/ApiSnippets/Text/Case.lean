import ApiSnippets.Text.ClassTable
import ApiSnippets.Text.CaseTable
/-!
# Letter case

Lower and upper case of a text. The full mappings apply: `ß` has the upper
case `SS`, and a capital sigma at the end of a word becomes a final sigma,
the one mapping that looks at its neighbours.
-/

namespace ApiSnippets

namespace Text

/-- The image of a code point under a list of runs, itself when no run
covers it. -/
def shiftCase (runs : List CaseRun) (n : Nat) : Nat :=
  match runs.find? (·.covers n) with
  | some r => (n + r.shift).toNat
  | none => n

/-- Lower case of one character on its own. -/
def lowerChar (c : Char) : List Char :=
  if c.toNat < 128 then
    if 'A' ≤ c ∧ c ≤ 'Z' then [Char.ofNat (c.toNat + 32)] else [c]
  else
    match Table.lowerSpecial.lookup c.toNat with
    | some ns => ns.map Char.ofNat
    | none => [Char.ofNat (shiftCase Table.lowerRuns c.toNat)]

/-- Upper case of one character. -/
def upperChar (c : Char) : List Char :=
  if c.toNat < 128 then
    if 'a' ≤ c ∧ c ≤ 'z' then [Char.ofNat (c.toNat - 32)] else [c]
  else
    match Table.upperSpecial.lookup c.toNat with
    | some ns => ns.map Char.ofNat
    | none => [Char.ofNat (shiftCase Table.upperRuns c.toNat)]

/-- Characters that do not separate a sigma from the letters around it. -/
def isCaseIgnorable (c : Char) : Bool :=
  if c.toNat < 128 then
    c == '\'' || c == '.' || c == ':' || c == '^' || c.toNat == 96
  else Table.mem Table.caseIgnorableBounds c.toNat

/-- Cased characters that are not case-ignorable. -/
def isCased (c : Char) : Bool :=
  if c.toNat < 128 then (decide ('a' ≤ c) && decide (c ≤ 'z')) || (decide ('A' ≤ c) && decide (c ≤ 'Z'))
  else Table.mem Table.casedBounds c.toNat

/-- Whether the next character that counts is cased. -/
def casedAhead (cs : List Char) : Bool :=
  match cs.dropWhile isCaseIgnorable with
  | [] => false
  | c :: _ => isCased c

/-- Lower case of the rest of a text, given whether a cased character stands
before it. -/
def lowerFrom (afterCased : Bool) : List Char → List Char
  | [] => []
  | c :: rest =>
    (if c = 'Σ' then (if afterCased && !casedAhead rest then ['ς'] else ['σ']) else lowerChar c) ++
      lowerFrom (if isCaseIgnorable c then afterCased else isCased c) rest

/-- Lower case of a sequence of characters. -/
def lowerChars (cs : List Char) : List Char :=
  lowerFrom false cs

/-- Upper case of a sequence of characters. -/
def upperChars (cs : List Char) : List Char :=
  cs.flatMap upperChar

/-- Lower case of a text. -/
def lower (s : String) : String :=
  String.ofList (lowerChars s.toList)

/-- Upper case of a text. -/
def upper (s : String) : String :=
  String.ofList (upperChars s.toList)

/-- Two texts that differ in letter case at most. -/
def sameLetters (s t : String) : Bool :=
  lower s == lower t

/-- The text with its first character in upper case. -/
def capitalize : List Char → List Char
  | [] => []
  | c :: cs => upperChar c ++ cs

/-- The text with its first character in lower case. -/
def decapitalize : List Char → List Char
  | [] => []
  | c :: cs => lowerChars [c] ++ cs

end Text

end ApiSnippets
