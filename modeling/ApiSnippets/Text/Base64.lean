import ApiSnippets.Text.Utf8
/-!
# Base64

The standard alphabet with padding.
-/

namespace ApiSnippets

namespace Base64

/-- The character for a value below 64. -/
def digit (n : Nat) : Char :=
  if n < 26 then Char.ofNat (n + 65)
  else if n < 52 then Char.ofNat (n + 71)
  else if n < 62 then Char.ofNat (n - 4)
  else if n = 62 then '+'
  else '/'

/-- The value of an alphabet character. -/
def value? (c : Char) : Option Nat :=
  if 'A' ≤ c ∧ c ≤ 'Z' then some (c.toNat - 65)
  else if 'a' ≤ c ∧ c ≤ 'z' then some (c.toNat - 71)
  else if '0' ≤ c ∧ c ≤ '9' then some (c.toNat + 4)
  else if c = '+' then some 62
  else if c = '/' then some 63
  else none

/-- The characters of an octet sequence, three octets at a time. -/
def encodeChars : Bytes → List Char
  | [] => []
  | [a] =>
    let n := a.toNat * 16
    [digit (n / 64), digit (n % 64), '=', '=']
  | [a, b] =>
    let n := (a.toNat * 256 + b.toNat) * 4
    [digit (n / 4096), digit (n / 64 % 64), digit (n % 64), '=']
  | a :: b :: c :: rest =>
    let n := (a.toNat * 256 + b.toNat) * 256 + c.toNat
    digit (n / 262144) :: digit (n / 4096 % 64) :: digit (n / 64 % 64) :: digit (n % 64) ::
      encodeChars rest

/-- The text of an octet sequence. -/
def encode (bs : Bytes) : String :=
  String.ofList (encodeChars bs)

/-- The octets behind alphabet values, four values at a time; none when one
value is left over. A flag says whether padding ends the values. -/
def octets? (padded : Bool) : List Nat → Option Bytes
  | a :: b :: c :: d :: rest => do
    let n := ((a * 64 + b) * 64 + c) * 64 + d
    let more ← octets? padded rest
    pure (UInt8.ofNat (n / 65536) :: UInt8.ofNat (n / 256 % 256) :: UInt8.ofNat (n % 256) :: more)
  | [a, b, c] =>
    let n := (a * 64 + b) * 64 + c
    if padded then some [UInt8.ofNat (n / 1024), UInt8.ofNat (n / 4 % 256)] else none
  | [a, b] => if padded then some [UInt8.ofNat ((a * 64 + b) / 16)] else none
  | [] => some []
  | _ => none

/-- The alphabet values up to the padding that completes a group of four, and
whether there is such padding. The counters are the values since the last
complete group, and the padding characters since the last value. -/
def values (position pads : Nat) : List Char → List Nat × Bool
  | [] => ([], false)
  | c :: cs =>
    if c = '=' then
      if 2 ≤ position then
        if 4 ≤ position + pads + 1 then ([], true) else values position (pads + 1) cs
      else values position pads cs
    else
      match value? c with
      | none => values position pads cs
      | some v =>
        let (vs, padded) := values ((position + 1) % 4) 0 cs
        (v :: vs, padded)

/-- The octets a text stands for; characters outside the alphabet are
skipped. There are none when the last group is not padded. -/
def decode? (s : String) : Option Bytes :=
  let (vs, padded) := values 0 0 s.toList
  octets? padded vs

end Base64

end ApiSnippets
