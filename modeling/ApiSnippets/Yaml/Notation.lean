import ApiSnippets.Calendar
import ApiSnippets.Text.Case
import ApiSnippets.Text.Percent
/-!
# How YAML scalars are written

The notations of YAML 1.1: words for truth values and null, integers in five
notations, numbers, days and moments. What is written like a value is told by
its looks alone; whether there is such a value is another matter.
-/

namespace ApiSnippets

namespace Yaml

/-! ## Words -/

/-- The truth value a word names. -/
def truth? (word : String) : Option Bool :=
  if ["yes", "true", "on"].contains word then some true
  else if ["no", "false", "off"].contains word then some false
  else none

/-- Whether a word is written in lower case, capitalised or in capitals. -/
def isCasing (word : String) (s : String) : Bool :=
  s == word || s == String.ofList (Text.capitalize word.toList) || s == Text.upper word

/-- The words for truth values. -/
def isTruthWord (s : String) : Bool :=
  ["yes", "no", "true", "false", "on", "off"].any (isCasing · s)

/-! ## Numbers -/

/-- An ASCII digit. -/
def isNumeral (c : Char) : Bool := Number.isNumeral c

/-- A digit or an underscore. -/
def isGrouped (c : Char) : Bool := isNumeral c || c == '_'

/-- The characters after an optional sign. -/
def unsigned : List Char → List Char
  | '-' :: cs => cs
  | '+' :: cs => cs
  | cs => cs

/-- Whether all parts after the first colon are minutes or seconds: one digit,
or two of which the first is at most five. -/
def areSixtieths (parts : List (List Char)) : Bool :=
  !parts.isEmpty && parts.all fun p =>
    match p with
    | [a] => isNumeral a
    | [a, b] => decide ('0' ≤ a) && decide (a ≤ '5') && isNumeral b
    | _ => false

/-- Whether a text is written like an integer. -/
def isInt (cs : List Char) : Bool :=
  match unsigned cs with
  | '0' :: 'b' :: ds => !ds.isEmpty && ds.all fun c => c == '0' || c == '1' || c == '_'
  | '0' :: 'x' :: ds => !ds.isEmpty && ds.all fun c => (Text.hexValue? c).isSome || c == '_'
  | ['0'] => true
  | '0' :: ds => ds.all fun c => (decide ('0' ≤ c) && decide (c ≤ '7')) || c == '_'
  | c :: ds =>
    isNumeral c &&
      match Text.splitAll ':' ds with
      | [] => true
      | [only] => only.all isGrouped
      | first :: parts => first.all isGrouped && areSixtieths parts
  | [] => false

/-- Whether characters are a signed exponent, or nothing. -/
def isExponent : List Char → Bool
  | [] => true
  | e :: sign :: ds =>
    (e == 'e' || e == 'E') && (sign == '+' || sign == '-') && !ds.isEmpty && ds.all isNumeral
  | _ => false

/-- Whether a text is written like a number that is no integer. -/
def isFloat (cs : List Char) : Bool :=
  let name := String.ofList cs
  [".nan", ".NaN", ".NAN"].contains name ||
    [".inf", ".Inf", ".INF"].contains (String.ofList (unsigned cs)) ||
    (match cs with
      | '.' :: c :: ds => isNumeral c && isExponent (ds.dropWhile isGrouped)
      | _ => false) ||
    (match unsigned cs with
      | c :: ds =>
        isNumeral c &&
          match Text.cutAt '.' (ds.dropWhile isGrouped) with
          | ([], some after) => isExponent (after.dropWhile isGrouped)
          | (middle, some after) =>
            (match Text.splitAll ':' middle with
              | [] :: parts => areSixtieths parts
              | _ => false) && after.all isGrouped
          | _ => false
      | [] => false)

/-! ## Days and moments -/

/-- Whether a text is a date of the form `2020-01-31`. -/
def isDay (cs : List Char) : Bool :=
  match cs with
  | [a, b, c, d, '-', e, f, '-', g, h] => [a, b, c, d, e, f, g, h].all isNumeral
  | _ => false

/-- The value of one or two digits at the start, and what follows. -/
def oneOrTwo? : List Char → Option (Nat × List Char)
  | a :: b :: cs =>
    if isNumeral a then
      if isNumeral b then some (Number.plainValue [a, b], cs)
      else some (Number.plainValue [a], b :: cs)
    else none
  | [a] => if isNumeral a then some (Number.plainValue [a], []) else none
  | [] => none

/-- A character at the start, and what follows. -/
def mark? (c : Char) : List Char → Option (List Char)
  | d :: cs => if c = d then some cs else none
  | [] => none

/-- The value of two digits at the start, and what follows. -/
def two? : List Char → Option (Nat × List Char)
  | a :: b :: cs =>
    if isNumeral a && isNumeral b then some (Number.plainValue [a, b], cs) else none
  | _ => none

/-- A space or a tab. -/
def isSpacing (c : Char) : Bool := c == ' ' || c == '\t'

/-- The zone that the characters are, which may be none. -/
def zone? (cs : List Char) : Option (Option Int) :=
  match cs.dropWhile isSpacing with
  | [] => if cs.isEmpty then some none else none
  | ['Z'] => some (some 0)
  | sign :: ds => do
    let ahead : Int ← if sign = '+' then some 1 else if sign = '-' then some (-1) else none
    let (hours, rest) ← oneOrTwo? ds
    match rest with
    | [] => some (some (ahead * (60 * hours : Nat)))
    | ':' :: ms =>
      match ← two? ms with
      | (minutes, []) => some (some (ahead * (60 * hours + minutes : Nat)))
      | _ => none
    | _ => none

/-- Microseconds from the digits of a fraction, further digits dropped. -/
def microseconds (digits : List Char) : Nat :=
  Number.plainValue ((digits ++ List.replicate 6 '0').take 6)

/-- The day at the start, the month and the day of the month in one or two
digits, and what follows. -/
def day? (cs : List Char) : Option (Day × List Char) := do
  let (century, cs) ← two? cs
  let (year, cs) ← two? cs
  let (month, cs) ← oneOrTwo? (← mark? '-' cs)
  let (day, cs) ← oneOrTwo? (← mark? '-' cs)
  pure (⟨100 * century + year, month, day⟩, cs)

/-- The moment that a day and the characters after it are. -/
def moment? (day : Day) (cs : List Char) : Option Moment := do
  let cs ←
    match cs with
    | 'T' :: rest => some rest
    | 't' :: rest => some rest
    | c :: rest => if isSpacing c then some (rest.dropWhile isSpacing) else none
    | [] => none
  let (hour, cs) ← oneOrTwo? cs
  let (minute, cs) ← two? (← mark? ':' cs)
  let (second, cs) ← two? (← mark? ':' cs)
  let (fraction, cs) :=
    match cs with
    | '.' :: rest => (rest.takeWhile isNumeral, rest.dropWhile isNumeral)
    | _ => ([], cs)
  let zone ← zone? cs
  pure ⟨day, hour, minute, second, microseconds fraction, zone⟩

/-- Whether a text is written like a point in time. -/
def isMoment (cs : List Char) : Bool :=
  (day? cs).any fun (day, rest) => (moment? day rest).isSome

end Yaml

end ApiSnippets
