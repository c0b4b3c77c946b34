import ApiSnippets.Number.Nearest
import ApiSnippets.Text.Cut
/-!
# Numbers as text

How a double is written and how numbers are read. A double is written with
its shortest digits: positionally while its leading digit stands between
10⁻⁴ and 10¹⁵, with an exponent otherwise.
-/

namespace ApiSnippets

namespace Number

/-! ## Writing -/

/-- Where positional notation ends and how an exponent is written. -/
structure Layout where
  /-- The least power of ten of a leading digit written positionally. -/
  least : Int
  /-- The first power of ten that takes an exponent. -/
  bound : Int
  /-- Digits of an exponent at least. -/
  exponentDigits : Nat
  infinite : String
  notANumber : String

/-- The layout of every number in messages and snippets. -/
def plainLayout : Layout :=
  ⟨-4, 16, 2, "inf", "nan"⟩

/-- A number with leading zeros up to a width. -/
def padded (width n : Nat) : String :=
  let digits := toString n
  String.ofList (List.replicate (width - digits.length) '0') ++ digits

/-- Digits and the power of ten of the last one, without trailing zeros. -/
def Decimal.digitChars (d : Decimal) : List Char :=
  match Text.trimEnd (· == '0') (toString d.digits).toList with
  | [] => ['0']
  | cs => cs

/-- Digits laid out, given the power of ten of the first one. -/
def Layout.arrange (l : Layout) (digits : List Char) (top : Int) : String :=
  if l.least ≤ top ∧ top < l.bound then
    if top < 0 then
      "0." ++ String.ofList (List.replicate (-top - 1).toNat '0' ++ digits)
    else
      let whole := top.toNat + 1
      let before := digits.take whole ++ List.replicate (whole - digits.length) '0'
      let after := digits.drop whole
      String.ofList before ++ "." ++ (if after.isEmpty then "0" else String.ofList after)
  else
    let mantissa := String.ofList (digits.take 1) ++
      (if (digits.drop 1).isEmpty then "" else "." ++ String.ofList (digits.drop 1))
    mantissa ++ "e" ++ (if top < 0 then "-" else "+") ++ padded l.exponentDigits top.natAbs

/-- The text of a bit pattern. -/
def Layout.writeBits (l : Layout) (bits : Nat) : String :=
  match decodeBits bits with
  | .notANumber => l.notANumber
  | .infinite negative => (if negative then "-" else "") ++ l.infinite
  | .finite negative m q =>
    let sign := if negative then "-" else ""
    if m = 0 then sign ++ "0.0"
    else
      let d := shortest m q
      sign ++ l.arrange d.digitChars (d.exponent + ((toString d.digits).length : Int) - 1)

/-- The text of a double. -/
def floatText (x : Float) : String :=
  plainLayout.writeBits x.toBits.toNat

/-! ## Reading -/

/-- The longest run of digits that is read or written as an integer. -/
def maxDigits : Nat := 4300

/-- The value of a run of decimal digits of any script; digits without a
decimal value and runs that are too long have none. -/
def digitsValue? (cs : List Char) : Option Nat :=
  if cs.length > maxDigits then none
  else cs.foldl (fun acc c => acc.bind fun n => (Text.decimalValue? c).map (10 * n + ·)) (some 0)

/-- A text of digits only, with a minus sign allowed in front. -/
def isIntegral (s : String) : Bool :=
  match s.toList with
  | '-' :: cs => !cs.isEmpty && cs.all Text.isDigit
  | cs => !cs.isEmpty && cs.all Text.isDigit

/-- A text of digits only, with any number of minus signs allowed in front. -/
def isDashedDigits (s : String) : Bool :=
  let digits := s.toList.dropWhile (· == '-')
  !digits.isEmpty && digits.all Text.isDigit

/-- The integer a text of digits stands for. -/
def signedValue? : List Char → Option Int
  | '-' :: cs => (digitsValue? cs).map fun n => -(n : Int)
  | cs => (digitsValue? cs).map fun n => (n : Int)

/-- An ASCII digit. -/
def isNumeral (c : Char) : Bool :=
  decide ('0' ≤ c) && decide (c ≤ '9')

/-- The ASCII form of a digit of any script; other characters stay. -/
def asciiDigit (c : Char) : Char :=
  match Text.decimalValue? c with
  | some n => Char.ofNat (n + 48)
  | none => c

/-- The value of a run of ASCII digits, however long. -/
def plainValue (cs : List Char) : Nat :=
  cs.foldl (fun n c => 10 * n + (c.toNat - 48)) 0

/-- An optional sign and what follows it. -/
def splitSign : List Char → Bool × List Char
  | '-' :: cs => (true, cs)
  | '+' :: cs => (false, cs)
  | cs => (false, cs)

/-- Whether every underscore stands between two digits. -/
def groupedWell : Bool → List Char → Bool
  | _, [] => true
  | afterDigit, '_' :: d :: cs =>
    afterDigit && isNumeral d && groupedWell true cs
  | _, ['_'] => false
  | _, c :: cs => groupedWell (isNumeral c) cs

/-- White space that may stand around a number. The four characters that
separate fields and records are white space elsewhere, but not here. -/
def isSurround (c : Char) : Bool :=
  Text.isBlank c && !(decide (0x1C ≤ c.toNat) && decide (c.toNat ≤ 0x1F))

/-- A number without the white space around it, its digits those of ASCII. -/
def bare (cs : List Char) : List Char :=
  (Text.trim isSurround cs).map asciiDigit

/-- A lenient integer: white space around it, a sign, digits of any script
with single underscores between them. -/
def lenientInteger? (cs : List Char) : Option Int :=
  let (negative, body) := splitSign (bare cs)
  let digits := body.filter (· != '_')
  if digits.isEmpty || digits.length > maxDigits || !digits.all isNumeral ||
      !groupedWell false body then none
  else
    let n : Int := (plainValue digits : Nat)
    some (if negative then -n else n)

/-- An unsigned decimal without underscores: digits with an optional point
among them, at least one digit, and an optional exponent; the bits of the
nearest double. -/
def unsignedDecimal? (cs : List Char) : Option Nat :=
  let whole := cs.takeWhile isNumeral
  let (fraction, rest) :=
    match cs.dropWhile isNumeral with
    | '.' :: more => (more.takeWhile isNumeral, more.dropWhile isNumeral)
    | more => ([], more)
  if whole.isEmpty && fraction.isEmpty then none
  else
    let digits := plainValue (whole ++ fraction)
    let scale := -(fraction.length : Int)
    match rest with
    | [] => some (decimalBits digits scale)
    | e :: more =>
      if e = 'e' ∨ e = 'E' then
        let (negative, ds) := splitSign more
        if ds.isEmpty || !ds.all isNumeral then none
        else
          let n : Int := (plainValue ds : Nat)
          some (decimalBits digits (scale + if negative then -n else n))
      else none

/-- A lenient decimal: white space around it, a sign, digits of any script,
underscores between digits, or the names of infinity and of no number in any
case. -/
def lenientFloat? (cs : List Char) : Option Float :=
  let (negative, body) := splitSign (bare cs)
  let name := String.ofList (body.map Char.toLower)
  let magnitude :=
    if name = "inf" ∨ name = "infinity" then some infinityBits
    else if name = "nan" then some nanBits
    else if groupedWell false body then unsignedDecimal? (body.filter (· != '_'))
    else none
  magnitude.map (ofMagnitude negative)

/-- The double nearest to an integer, none when it is beyond the largest. -/
def floatOfInt? (n : Int) : Option Float :=
  let bits := Ratio.nearestBits ⟨n.natAbs, 1⟩
  if bits = infinityBits then none else some (ofMagnitude (decide (n < 0)) bits)

/-- Whether a double is exactly an integer. -/
def equalsInt (x : Float) (n : Int) : Bool :=
  match decodeBits x.toBits.toNat with
  | .finite negative m q =>
    let v := scaled m q
    v.num == n.natAbs * v.den && (n == 0 || negative == decide (n < 0))
  | _ => false

/-- The integer part of a finite double. -/
def truncate? (x : Float) : Option Int :=
  match decodeBits x.toBits.toNat with
  | .finite negative m q =>
    let v := scaled m q
    let n := ((v.num / v.den : Nat) : Int)
    some (if negative then -n else n)
  | _ => none

end Number

end ApiSnippets
