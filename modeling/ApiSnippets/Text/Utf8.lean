/-!
# UTF-8

Texts as octets. Writing is exact; reading comes in two forms, one that
refuses octets which encode no text and one that puts U+FFFD in their place.
-/

namespace ApiSnippets

/-- A sequence of octets. -/
abbrev Bytes := List UInt8

namespace Utf8

/-- The octets of a sequence of characters. -/
def encode (cs : List Char) : Bytes :=
  cs.flatMap String.utf8EncodeChar

/-- The text these octets encode, if they encode one. -/
def decode? (bs : Bytes) : Option String :=
  String.fromUTF8? ⟨bs.toArray⟩

/-! ## Unpaired surrogates -/

/-- What stands for an unpaired surrogate in a text. A surrogate is a number
that is no character and has no octets; a character for private use takes its
place. These characters are taken for surrogates wherever they come from. -/
def standIn (unit : Nat) : Char :=
  Char.ofNat (0x100000 + unit)

/-- The surrogate that a character stands for. -/
def surrogate? (c : Char) : Option Nat :=
  if 0x10D800 ≤ c.toNat ∧ c.toNat < 0x10E000 then some (c.toNat - 0x100000) else none

/-- Whether a text has octets: nothing in it stands for a surrogate. -/
def isEncodable (s : String) : Bool :=
  s.toList.all fun c => (surrogate? c).isNone

/-! ## Reading with U+FFFD -/

/-- A character under construction: the bits read so far, the bounds of the
next octet and the number of octets missing. -/
structure Pending where
  bits : Nat
  low : Nat
  high : Nat
  missing : Nat

/-- What an octet between characters does: the character it writes, if any,
and the character it begins, if any. -/
def begin (b : Nat) : List Char × Option Pending :=
  if b < 0x80 then ([Char.ofNat b], none)
  else if b < 0xC2 then (['\uFFFD'], none)
  else if b ≤ 0xDF then ([], some ⟨b - 0xC0, 0x80, 0xBF, 1⟩)
  else if b = 0xE0 then ([], some ⟨0, 0xA0, 0xBF, 2⟩)
  else if b = 0xED then ([], some ⟨0xD, 0x80, 0x9F, 2⟩)
  else if b ≤ 0xEF then ([], some ⟨b - 0xE0, 0x80, 0xBF, 2⟩)
  else if b = 0xF0 then ([], some ⟨0, 0x90, 0xBF, 3⟩)
  else if b ≤ 0xF3 then ([], some ⟨b - 0xF0, 0x80, 0xBF, 3⟩)
  else if b = 0xF4 then ([], some ⟨4, 0x80, 0x8F, 3⟩)
  else (['\uFFFD'], none)

/-- Reads octets, writing U+FFFD for every longest beginning of a character
that is not completed and for every octet that begins none. -/
def decodeFrom : Option Pending → Bytes → List Char
  | none, [] => []
  | some _, [] => ['\uFFFD']
  | none, b :: bs => (begin b.toNat).1 ++ decodeFrom (begin b.toNat).2 bs
  | some p, b :: bs =>
    if p.low ≤ b.toNat ∧ b.toNat ≤ p.high then
      let bits := p.bits * 64 + (b.toNat - 0x80)
      if p.missing ≤ 1 then Char.ofNat bits :: decodeFrom none bs
      else decodeFrom (some ⟨bits, 0x80, 0xBF, p.missing - 1⟩) bs
    else '\uFFFD' :: (begin b.toNat).1 ++ decodeFrom (begin b.toNat).2 bs

/-- The text of these octets, with U+FFFD where they encode none. -/
def decodeLossy (bs : Bytes) : List Char :=
  decodeFrom none bs

end Utf8

end ApiSnippets
