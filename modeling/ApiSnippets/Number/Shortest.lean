import ApiSnippets.Number.Power
/-!
# Shortest decimals

The fewest decimal digits that read back as a given double. The bits of a
double give a magnitude `m · 2^q` and the interval of reals that round to it;
for one digit, two digits and so on, the two neighbours of the magnitude on
the decimal grid are tested against the interval in exact arithmetic. The
first grid with a hit gives the answer, the nearer neighbour when both hit.
Seventeen digits always suffice.
-/

namespace ApiSnippets

namespace Number

/-- What the bits of a double say. -/
inductive Decoded where
  | infinite (negative : Bool)
  | notANumber
  /-- The magnitude `m · 2^q`. -/
  | finite (negative : Bool) (m : Nat) (q : Int)

/-- The reading of a bit pattern. -/
def decodeBits (bits : Nat) : Decoded :=
  let negative := bits / twoTo 63 == 1
  let exponent : Nat := bits / twoTo 52 % 2048
  let fraction : Nat := bits % twoTo 52
  if exponent = 2047 then
    if fraction = 0 then .infinite negative else .notANumber
  else if exponent = 0 then .finite negative fraction (-1074)
  else .finite negative (twoTo 52 + fraction) ((exponent : Int) - 1075)

/-- A quotient of natural numbers. -/
structure Ratio where
  num : Nat
  den : Nat

/-- A natural number times a power of two. -/
def scaled (n : Nat) (q : Int) : Ratio :=
  if 0 ≤ q then ⟨n * twoTo q.toNat, 1⟩ else ⟨n, twoTo (-q).toNat⟩

/-- Significant digits, as a number, and the power of ten of the last one. -/
structure Decimal where
  digits : Nat
  exponent : Int

/-- The reals that round to `m · 2^q`, in units of `2^(q-2)`. The lower half
of the interval is shorter when `m` is the least significand of its binade,
and the ends belong to it when `m` is even. -/
structure Rounding where
  low : Nat
  high : Nat
  inclusive : Bool

/-- The interval around `m · 2^q`. -/
def rounding (m : Nat) (q : Int) : Rounding :=
  ⟨if m = twoTo 52 ∧ q ≠ -1074 then 4 * m - 1 else 4 * m - 2, 4 * m + 2, m % 2 == 0⟩

/-- `digits · 10^k` compared with `n · 2^(q-2)`, by cross multiplication. -/
def compareScaled (digits : Nat) (k : Int) (n : Nat) (q : Int) : Ordering :=
  let right := scaled n (q - 2)
  if 0 ≤ k then compare (digits * tenTo k.toNat * right.den) right.num
  else compare (digits * right.den) (right.num * tenTo (-k).toNat)

/-- Whether a decimal rounds to `m · 2^q`. -/
def readsBack (m : Nat) (q : Int) (digits : Nat) (k : Int) : Bool :=
  let r := rounding m q
  match compareScaled digits k r.low q, compareScaled digits k r.high q with
  | .gt, .lt => true
  | .eq, _ => r.inclusive
  | _, .eq => r.inclusive
  | _, _ => false

/-- The integer part of `m · 2^q / 10^k`. -/
def gridFloor (m : Nat) (q k : Int) : Nat :=
  let v := scaled m q
  if 0 ≤ k then v.num / (v.den * tenTo k.toNat) else v.num * tenTo (-k).toNat / v.den

/-- Whether `10^e` is at most `m · 2^q`. -/
def reaches (m : Nat) (q e : Int) : Bool :=
  let v := scaled m q
  if 0 ≤ e then decide (tenTo e.toNat * v.den ≤ v.num)
  else decide (v.den ≤ v.num * tenTo (-e).toNat)

/-- The power of ten of the leading digit of `m · 2^q`: an estimate from the
binary length, which is at most one too small. -/
def leading (m : Nat) (q : Int) : Int :=
  let estimate := Int.fdiv (((Nat.log2 m : Int) + q) * 30103) 100000
  if reaches m q (estimate + 1) then estimate + 1
  else if reaches m q estimate then estimate
  else estimate - 1

/-- The neighbour of `m · 2^q` on the grid of multiples of `10^k` that reads
back, the nearer one if both do. -/
def onGrid? (m : Nat) (q k : Int) : Option Decimal :=
  let below := gridFloor m q k
  let above := below + 1
  match readsBack m q below k, readsBack m q above k with
  | true, true =>
    -- The middle between the neighbours lies above the value exactly when the lower one is nearer.
    match compareScaled (5 * (below + above)) (k - 1) (4 * m) q with
    | .gt => some ⟨below, k⟩
    | .eq => if below % 2 = 0 then some ⟨below, k⟩ else some ⟨above, k⟩
    | .lt => some ⟨above, k⟩
  | true, false => some ⟨below, k⟩
  | false, true => some ⟨above, k⟩
  | false, false => none

/-- The shortest decimal for `m · 2^q`, trying `n` digits first. -/
def shortestFrom (m : Nat) (q top : Int) (n : Nat) : Nat → Decimal
  | 0 => ⟨gridFloor m q (top + 1 - n), top + 1 - n⟩
  | tries + 1 =>
    match onGrid? m q (top + 1 - n) with
    | some d => d
    | none => shortestFrom m q top (n + 1) tries

/-- The shortest decimal that reads back as `m · 2^q`. -/
def shortest (m : Nat) (q : Int) : Decimal :=
  shortestFrom m q (leading m q) 1 17

end Number

end ApiSnippets
