import ApiSnippets.Text.Cut
import ApiSnippets.Text.Utf8
/-!
# Percent encoding

Decoding of URL texts. `%` and two hexadecimal digits stand for an octet, a
`%` without them for itself, and the octets are read as UTF-8 with U+FFFD
where they encode nothing.
-/

namespace ApiSnippets

namespace Text

/-- The value of a hexadecimal digit of either case. -/
def hexValue? (c : Char) : Option Nat :=
  if '0' ≤ c ∧ c ≤ '9' then some (c.toNat - 48)
  else if 'a' ≤ c ∧ c ≤ 'f' then some (c.toNat - 87)
  else if 'A' ≤ c ∧ c ≤ 'F' then some (c.toNat - 55)
  else none

/-- The octets a percent-encoded text stands for. -/
def percentOctets : List Char → Bytes
  | [] => []
  | '%' :: a :: b :: cs =>
    match hexValue? a, hexValue? b with
    | some x, some y => UInt8.ofNat (16 * x + y) :: percentOctets cs
    | _, _ => 37 :: percentOctets (a :: b :: cs)
  | c :: cs => String.utf8EncodeChar c ++ percentOctets cs

/-- The text behind a percent-encoded one. -/
def percentDecode (cs : List Char) : List Char :=
  Utf8.decodeLossy (percentOctets cs)

/-- Percent decoding of a query component, where `+` stands for a space. -/
def queryDecode (cs : List Char) : List Char :=
  percentDecode (replaceChar '+' [' '] cs)

end Text

end ApiSnippets
