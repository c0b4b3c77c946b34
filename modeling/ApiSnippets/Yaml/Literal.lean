import ApiSnippets.Number.Text
import ApiSnippets.Scalar
import ApiSnippets.Text.Base64
import ApiSnippets.Yaml.Fault
import ApiSnippets.Yaml.Tag
/-!
# Values of YAML scalars

The value that a text has under a tag. A tag that is written out may stand
before a text of any looks, so the readers here are more lenient than the
notations: a number may have white space around it, and a base may be named
once more in front of its digits.
-/

namespace ApiSnippets

namespace Yaml

/-! ## Integers -/

/-- The value of digits in a base, none when there is no digit or one that the
base does not have. -/
def inBase? (base : Nat) (cs : List Char) : Option Nat :=
  if cs.isEmpty then none
  else cs.foldl (fun acc c => do
    let n ← acc
    let d ← Text.hexValue? c
    if d < base then some (base * n + d) else none) (some 0)

/-- Digits without the two characters in front that may name their base. -/
def withoutBase (mark : Char) : List Char → List Char
  | '0' :: m :: ds => if m.toLower = mark then ds else '0' :: m :: ds
  | ds => ds

/-- A lenient integer in a base that a letter names: white space around it,
a sign, the name of the base, digits of any script. -/
def lenientInBase? (base : Nat) (mark : Char) (cs : List Char) : Option Int :=
  let (negative, digits) := Number.splitSign (Number.bare cs)
  (inBase? base (withoutBase mark digits)).map fun n => if negative then -(n : Int) else n

/-- The integer that a text is written as after its sign. Several parts count
in sixtieths, the last one the unit. -/
def afterSign? (cs : List Char) : Option Int :=
  match cs with
  | '0' :: 'b' :: ds => lenientInBase? 2 'b' ds
  | '0' :: 'x' :: ds => lenientInBase? 16 'x' ds
  | '0' :: ds => lenientInBase? 8 'o' ('0' :: ds)
  | _ =>
    (Text.splitAll ':' cs).foldl (fun acc part => do
      let n ← acc
      let p ← Number.lenientInteger? part
      pure (60 * n + p)) (some 0)

/-- The integer a text is written as. -/
def intOf (s : String) : Except ReadFault Int :=
  match Number.splitSign (s.toList.filter (· != '_')) with
  | (_, []) => .error .emptyNumber
  | (negative, cs) =>
    match afterSign? cs with
    | some n => .ok (if negative then -n else n)
    | none => .error .noValue

/-! ## Numbers -/

/-- The sum of parts that count in sixtieths, least part first, each step
rounded. A unit may be beyond the largest double. -/
def sumSixtieths (unit : Int) (sum : Float) : List Float → Except ReadFault Float
  | [] => .ok sum
  | x :: xs =>
    match Number.floatOfInt? unit with
    | some u => sumSixtieths (60 * unit) (sum + x * u) xs
    | none => .error .beyond

/-- The number that a text is written as after its sign. -/
def floatAfterSign (cs : List Char) : Except ReadFault Float :=
  if cs = ".inf".toList then .ok (Number.ofMagnitude false Number.infinityBits)
  else if cs = ".nan".toList then .ok (Number.ofMagnitude false Number.nanBits)
  else
    match Text.splitAll ':' cs with
    | [_] =>
      match Number.lenientFloat? cs with
      | some x => .ok x
      | none => .error .noValue
    | parts =>
      match parts.reverse.mapM Number.lenientFloat? with
      | some xs => sumSixtieths 1 0.0 xs
      | none => .error .noValue

/-- The number a text is written as. -/
def floatOf (s : String) : Except ReadFault Float :=
  match (Text.lower s).toList.filter (· != '_') with
  | [] => .error .emptyNumber
  | all =>
    let (negative, cs) := Number.splitSign all
    (floatAfterSign cs).map fun x => if negative then -x else x

/-! ## Other values -/

/-- The day or moment a text is written as. -/
def dateOf (s : String) : Except ReadFault Scalar :=
  match day? (Tag.withoutBreak s.toList) with
  | none => .error .notDate
  | some (day, []) => if day.isReal then .ok (.day day) else .error .noValue
  | some (day, rest) =>
    match moment? day rest with
    | none => .error .notDate
    | some m => if m.isReal then .ok (.moment m) else .error .noValue

/-- The octets a text stands for; the text is ASCII. -/
def octetsOf (s : String) : Except ReadFault Bytes :=
  if s.toList.all fun c => c.toNat < 128 then orMalformed (Base64.decode? s)
  else .error .malformed

/-- The value of a text under the tag of a scalar; the other tags give it
none. -/
def scalarOf (tag : Tag) (s : String) : Except ReadFault Scalar :=
  match tag with
  | .null => .ok .null
  | .bool =>
    match truth? (Text.lower s) with
    | some b => .ok (.bool b)
    | none => .error .unknownWord
  | .int => (intOf s).map .int
  | .float => (floatOf s).map .num
  | .date => dateOf s
  | .text => .ok (.text s)
  | .octets => (octetsOf s).map .octets
  | _ => .error .malformed

end Yaml

end ApiSnippets
