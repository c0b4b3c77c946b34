import ApiSnippets.Number.Shortest
/-!
# Nearest doubles

The double nearest to a quotient of natural numbers, a half going to the even
neighbour. The quotient is scaled until its integer part has 53 bits, fewer
only in the range of the smallest doubles, and that part is rounded.
-/

namespace ApiSnippets

namespace Number

/-- A quotient rounded to the nearest natural number, a half to the even
neighbour. -/
def roundHalfEven (num den : Nat) : Nat :=
  let below := num / den
  let rest := 2 * (num % den)
  if rest < den then below
  else if rest = den then (if below % 2 = 0 then below else below + 1)
  else below + 1

/-- The quotient divided by `2^q`. -/
def Ratio.unscale (r : Ratio) (q : Int) : Ratio :=
  if 0 ≤ q then ⟨r.num, r.den * twoTo q.toNat⟩ else ⟨r.num * twoTo (-q).toNat, r.den⟩

/-- The power of two of the last bit that a double keeps of the quotient. -/
def Ratio.lastBit (r : Ratio) : Int :=
  let q : Int := (Nat.log2 r.num : Int) - (Nat.log2 r.den : Int) - 53
  let v := r.unscale q
  max (-1074) (if twoTo 53 ≤ v.num / v.den then q + 1 else q)

/-- The bit pattern of infinity. -/
def infinityBits : Nat := 2047 * twoTo 52

/-- The bit pattern of a value that is no number. -/
def nanBits : Nat := infinityBits + twoTo 51

/-- The bits of the double nearest to the quotient. A significand that
rounds up to the next power of two carries into the exponent. -/
def Ratio.nearestBits (r : Ratio) : Nat :=
  if r.num = 0 then 0
  else
    let q := r.lastBit
    let v := r.unscale q
    min infinityBits ((q + 1074).toNat * twoTo 52 + roundHalfEven v.num v.den)

/-- The double with a sign and the bits of its magnitude. -/
def ofMagnitude (negative : Bool) (bits : Nat) : Float :=
  Float.ofBits (UInt64.ofNat (if negative then twoTo 63 + bits else bits))

/-- The bits of the double nearest to `digits · 10^exponent`. Exponents far
outside the range of doubles are decided by the number of digits. -/
def decimalBits (digits : Nat) (exponent : Int) : Nat :=
  let top : Int := exponent + ((toString digits).length : Int)
  if digits = 0 then 0
  else if top > 400 then infinityBits
  else if top < -400 then 0
  else if 0 ≤ exponent then Ratio.nearestBits ⟨digits * tenTo exponent.toNat, 1⟩
  else Ratio.nearestBits ⟨digits, tenTo (-exponent).toNat⟩

end Number

end ApiSnippets
