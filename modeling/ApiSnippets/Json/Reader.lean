import ApiSnippets.Json
import ApiSnippets.Number.Text
import ApiSnippets.Text.Percent
/-!
# Reading JSON

A reader for JSON texts. It is strict about white space, commas and control
characters and lenient in one point: `NaN`, `Infinity` and `-Infinity` are
numbers. A name that repeats in an object keeps its first place and takes its
last value.
-/

namespace ApiSnippets

namespace Json

/-- Why a text gives no value. -/
inductive ReadFault where
  /-- The text is not JSON. -/
  | malformed
  /-- An integer has more digits than are read. -/
  | tooLong
  deriving DecidableEq, Repr

namespace Reader

/-- White space between tokens. -/
def isGap (c : Char) : Bool :=
  c == ' ' || c == '\t' || c == '\n' || c == '\r'

/-- The characters after white space. -/
def skip (cs : List Char) : List Char :=
  cs.dropWhile isGap

/-- What follows a fixed word, when the characters begin with it. -/
def after? : List Char → List Char → Option (List Char)
  | [], cs => some cs
  | w :: ws, c :: cs => if w = c then after? ws cs else none
  | _ :: _, [] => none

/-! ## Strings -/

/-- The value of four hexadecimal digits. -/
def hexQuad (a b c d : Char) : Option Nat := do
  let w ← Text.hexValue? a
  let x ← Text.hexValue? b
  let y ← Text.hexValue? c
  let z ← Text.hexValue? d
  pure (((w * 16 + x) * 16 + y) * 16 + z)

/-- The character a one-letter escape stands for. -/
def unescape? (c : Char) : Option Char :=
  if c = '"' ∨ c = '\\' ∨ c = '/' then some c
  else if c = 'b' then some (Char.ofNat 8)
  else if c = 'f' then some (Char.ofNat 12)
  else if c = 'n' then some '\n'
  else if c = 'r' then some '\r'
  else if c = 't' then some '\t'
  else none

/-- The second half of a character written as two escapes, and what follows. -/
def lowHalf? : List Char → Option (Nat × List Char)
  | '\\' :: 'u' :: a :: b :: c :: d :: cs =>
    match hexQuad a b c d with
    | some n => if 0xDC00 ≤ n ∧ n < 0xE000 then some (n - 0xDC00, cs) else none
    | none => none
  | _ => none

/-- The characters of a string after its opening quote. An escape for half of a
pair without the other half gives what stands for it. The fuel bounds the
number of characters and escapes. -/
def stringBody : Nat → List Char → Except ReadFault (List Char × List Char)
  | 0, _ => .error .malformed
  | _, [] => .error .malformed
  | fuel + 1, c :: cs =>
    if c = '"' then .ok ([], cs)
    else if c = '\\' then
      match cs with
      | 'u' :: a :: b :: x :: d :: rest =>
        match hexQuad a b x d with
        | none => .error .malformed
        | some n =>
          if 0xD800 ≤ n ∧ n < 0xDC00 then
            match lowHalf? rest with
            | some (low, rest) => push fuel (Char.ofNat (0x10000 + (n - 0xD800) * 0x400 + low)) rest
            | none => push fuel (Utf8.standIn n) rest
          else if 0xDC00 ≤ n ∧ n < 0xE000 then push fuel (Utf8.standIn n) rest
          else push fuel (Char.ofNat n) rest
      | e :: rest =>
        match unescape? e with
        | some u => push fuel u rest
        | none => .error .malformed
      | [] => .error .malformed
    else if c.toNat < 32 then .error .malformed
    else push fuel c cs
where
  /-- A character in front of the rest of the string. -/
  push (fuel : Nat) (c : Char) (rest : List Char) : Except ReadFault (List Char × List Char) := do
    let (body, rest) ← stringBody fuel rest
    pure (c :: body, rest)

/-! ## Numbers -/

/-- An exponent, when the characters begin with one. -/
def exponent? : List Char → Option (Int × List Char)
  | e :: cs =>
    if e = 'e' ∨ e = 'E' then
      let (negative, ds) := Number.splitSign cs
      let digits := ds.takeWhile Number.isNumeral
      if digits.isEmpty then none
      else
        let n : Int := (Number.plainValue digits : Nat)
        some (if negative then -n else n, ds.dropWhile Number.isNumeral)
    else none
  | [] => none

/-- A fraction, when the characters begin with one. -/
def fraction? : List Char → Option (List Char × List Char)
  | '.' :: cs =>
    let digits := cs.takeWhile Number.isNumeral
    if digits.isEmpty then none else some (digits, cs.dropWhile Number.isNumeral)
  | _ => none

/-- The digits of an integer part: a zero alone, or digits without a leading
zero. -/
def wholePart : List Char → Option (List Char × List Char)
  | '0' :: cs => some (['0'], cs)
  | c :: cs =>
    if Number.isNumeral c then
      some (c :: cs.takeWhile Number.isNumeral, cs.dropWhile Number.isNumeral)
    else none
  | [] => none

/-- A number after its sign. Without fraction and exponent it is an integer. -/
def numeral (negative : Bool) (cs : List Char) : Except ReadFault (Json × List Char) :=
  match wholePart cs with
  | none => .error .malformed
  | some (whole, rest) =>
    let (fraction, rest) := (fraction? rest).getD ([], rest)
    match exponent? rest with
    | some (e, rest) =>
      .ok (float (whole ++ fraction) (e - fraction.length), rest)
    | none =>
      if !fraction.isEmpty then .ok (float (whole ++ fraction) (-(fraction.length : Int)), rest)
      else if whole.length > Number.maxDigits then .error .tooLong
      else
        let n : Int := (Number.plainValue whole : Nat)
        .ok (.int (if negative then -n else n), rest)
where
  /-- The double nearest to digits and a power of ten. -/
  float (digits : List Char) (scale : Int) : Json :=
    .num (Number.ofMagnitude negative (Number.decimalBits (Number.plainValue digits) scale))

/-! ## Words -/

/-- The fixed words and their values. -/
def wordTable : List (String × Json) :=
  [("null", .null), ("true", .bool true), ("false", .bool false),
    ("NaN", .num (Number.ofMagnitude false Number.nanBits)),
    ("Infinity", .num (Number.ofMagnitude false Number.infinityBits)),
    ("-Infinity", .num (Number.ofMagnitude true Number.infinityBits))]

/-- The value of a fixed word, when the characters begin with one. -/
def word? (cs : List Char) : Option (Json × List Char) :=
  wordTable.findSome? fun (w, v) => (after? w.toList cs).map fun rest => (v, rest)

/-- A value that is neither a string nor a container. -/
def scalar (cs : List Char) : Except ReadFault (Json × List Char) :=
  match word? cs with
  | some found => .ok found
  | none =>
    match cs with
    | '-' :: rest => numeral true rest
    | _ => numeral false cs

/-! ## Values -/

mutual

/-- The value at the start of the characters, which no white space precedes.
The fuel bounds the number of steps. -/
def value : Nat → List Char → Except ReadFault (Json × List Char)
  | 0, _ => .error .malformed
  | fuel + 1, cs =>
    match cs with
    | '"' :: rest => do
      let (body, rest) ← stringBody (rest.length + 1) rest
      pure (.str (String.ofList body), rest)
    | '[' :: rest =>
      match skip rest with
      | ']' :: rest => .ok (.arr [], rest)
      | rest => do
        let (items, rest) ← itemsFrom fuel rest
        pure (.arr items, rest)
    | '\x7b' :: rest =>
      match skip rest with
      | '\x7d' :: rest => .ok (.obj [], rest)
      | rest => do
        let (members, rest) ← membersFrom fuel rest
        pure (.obj (Entries.ofPairs members), rest)
    | _ => scalar cs

/-- The items of an array from the first one to the closing bracket. -/
def itemsFrom : Nat → List Char → Except ReadFault (List Json × List Char)
  | 0, _ => .error .malformed
  | fuel + 1, cs => do
    let (item, rest) ← value fuel cs
    match skip rest with
    | ']' :: rest => pure ([item], rest)
    | ',' :: rest =>
      let (items, rest) ← itemsFrom fuel (skip rest)
      pure (item :: items, rest)
    | _ => .error .malformed

/-- The members of an object from the first one to the closing brace. -/
def membersFrom : Nat → List Char → Except ReadFault (List (String × Json) × List Char)
  | 0, _ => .error .malformed
  | fuel + 1, cs =>
    match cs with
    | '"' :: rest => do
      let (name, rest) ← stringBody (rest.length + 1) rest
      match skip rest with
      | ':' :: rest =>
        let (v, rest) ← value fuel (skip rest)
        match skip rest with
        | '\x7d' :: rest => pure ([(String.ofList name, v)], rest)
        | ',' :: rest =>
          let (members, rest) ← membersFrom fuel (skip rest)
          pure ((String.ofList name, v) :: members, rest)
        | _ => .error .malformed
      | _ => .error .malformed
    | _ => .error .malformed

end

end Reader

/-- The value a text denotes, with white space around it. -/
def read (s : String) : Except ReadFault Json :=
  let cs := s.toList
  match Reader.value (cs.length + 1) (Reader.skip cs) with
  | .error e => .error e
  | .ok (v, rest) => if (Reader.skip rest).isEmpty then .ok v else .error .malformed

end Json

end ApiSnippets
