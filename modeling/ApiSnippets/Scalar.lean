import ApiSnippets.Calendar
import ApiSnippets.Text.Quoted
import ApiSnippets.Text.Utf8
/-!
# Scalars

Values without parts: the leaves of a description document and the keys of
its mappings. The module says when two scalars are one key, which of them can
be put in order, and how a scalar is put into a message: `text` leaves a
string as it is, `shown` quotes it.
-/

namespace ApiSnippets

/-- A value without parts. -/
inductive Scalar where
  | null
  | bool (b : Bool)
  | int (n : Int)
  | num (x : Float)
  | text (s : String)
  | octets (bs : Bytes)
  | day (d : Day)
  | moment (m : Moment)
  deriving Inhabited

namespace Scalar

/-! ## Sameness -/

/-- The integer a scalar counts as, truth values included. -/
def whole? : Scalar → Option Int
  | bool b => some (if b then 1 else 0)
  | int n => some n
  | _ => none

/-- Whether two scalars are the same key. An integer, a double and a truth
value of exactly one magnitude are, and so are moments at one instant. -/
def sameKey : Scalar → Scalar → Bool
  | null, null => true
  | text s, text t => s == t
  | octets s, octets t => s == t
  | day s, day t => s == t
  | moment s, moment t => s.isSame t
  | num x, num y => x == y
  | num x, b => b.whole?.any (Number.equalsInt x)
  | a, num y => a.whole?.any (Number.equalsInt y)
  | a, b =>
    match a.whole?, b.whole? with
    | some m, some n => m == n
    | _, _ => false

instance : BEq Scalar := ⟨sameKey⟩

/-! ## Order -/

/-- The scalars that have an order among themselves. -/
inductive Family where
  | number
  | text
  | octets
  | day
  /-- Moments without a zone. -/
  | localMoment
  /-- Moments with a zone. -/
  | instant
  deriving DecidableEq, Repr

/-- The family of a scalar; null has no order. -/
def family? : Scalar → Option Family
  | null => none
  | bool _ => some .number
  | int _ => some .number
  | num _ => some .number
  | text _ => some .text
  | octets _ => some .octets
  | day _ => some .day
  | moment m => some (if m.zone.isSome then .instant else .localMoment)

/-- Whether one of two scalars comes before the other or they are equal. -/
def areOrdered (a b : Scalar) : Bool :=
  a.family?.isSome && a.family? == b.family?

/-! ## Truth -/

/-- Whether a scalar counts as present: not null, false, zero or empty. -/
def isTruthy : Scalar → Bool
  | null => false
  | bool b => b
  | int n => n != 0
  | num x => !(x == 0.0)
  | text s => !s.isEmpty
  | octets bs => !bs.isEmpty
  | day _ => true
  | moment _ => true

/-! ## Scalars in messages -/

/-- A scalar inside the text of a container. -/
def shown : Scalar → String
  | null => "None"
  | bool true => "True"
  | bool false => "False"
  | int n => toString n
  | num x => Number.floatText x
  | text s => Text.shown s
  | octets bs => Text.shownOctets bs
  | day d => d.shown
  | moment m => m.shown

/-- A scalar as text: a string or a date as it is, everything else shown. -/
def asText : Scalar → String
  | text s => s
  | day d => d.text
  | moment m => m.text
  | s => s.shown

/-- The name of a scalar's type in messages. -/
def typeName : Scalar → String
  | null => "NoneType"
  | bool _ => "bool"
  | int _ => "int"
  | num _ => "float"
  | text _ => "str"
  | octets _ => "bytes"
  | day _ => "date"
  | moment _ => "datetime"

/-- The text that a scalar is, when a record has a field for a text: octets
are read as UTF-8. -/
def recordText? : Scalar → Option String
  | text s => some s
  | octets bs => Utf8.decode? bs
  | _ => none

end Scalar

end ApiSnippets
