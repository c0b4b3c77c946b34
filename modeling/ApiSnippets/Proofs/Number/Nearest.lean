import Mathlib.Order.Lattice
import Mathlib.Tactic.Ring
import ApiSnippets.Number.Text
/-!
# Integers beyond the doubles

An integer has a nearest double unless it is too large. The largest double is
`2^1024 - 2^971`; what is at least half a step above it rounds to infinity, and
a half rounds up since the last bit of the largest double is set
(`floatOfInt?_eq_none`).
-/

namespace ApiSnippets

namespace Number

variable {m k num den : Nat}

/-! ## Rounding -/

theorem div_le_roundHalfEven (num den : Nat) : num / den ≤ roundHalfEven num den := by
  simp only [roundHalfEven]
  split
  · exact Nat.le_refl _
  · split
    · split <;> omega
    · omega

theorem roundHalfEven_le (num den : Nat) : roundHalfEven num den ≤ num / den + 1 := by
  simp only [roundHalfEven]
  split
  · omega
  · split
    · split <;> omega
    · omega

/-- Above an odd number a half rounds up. -/
theorem lt_roundHalfEven_of_odd (hden : 0 < den) (hk : k % 2 = 1) :
    k < roundHalfEven num den ↔ (2 * k + 1) * den ≤ 2 * num := by
  have hsplit : den * (num / den) + num % den = num := Nat.div_add_mod num den
  have hrest : num % den < den := Nat.mod_lt num hden
  rcases Nat.lt_trichotomy (num / den) k with hlt | heq | hgt
  · -- the quotient is at most `k`, even when it is rounded up
    have hstep : den * (num / den + 1) ≤ den * k := Nat.mul_le_mul_left den hlt
    have hround : roundHalfEven num den ≤ k :=
      Nat.le_trans (roundHalfEven_le num den) hlt
    refine iff_of_false (by omega) ?_
    have hexpand : (2 * k + 1) * den = 2 * (den * k) + den := by ring
    have hexpand' : den * (num / den + 1) = den * (num / den) + den := by ring
    omega
  · -- the rest decides, and a half rounds up
    have hexpand : (2 * k + 1) * den = 2 * (den * (num / den)) + den := by
      rw [heq]
      ring
    simp only [roundHalfEven, heq]
    split
    · omega
    · split
      · rw [if_neg (by omega)]
        omega
      · omega
  · have hstep : den * (k + 1) ≤ den * (num / den) := Nat.mul_le_mul_left den hgt
    have hround : num / den ≤ roundHalfEven num den := div_le_roundHalfEven num den
    refine iff_of_true (by omega) ?_
    have hexpand : (2 * k + 1) * den + den = 2 * (den * (k + 1)) := by ring
    omega

/-! ## The last bit of an integer -/

theorem twoTo_add (a b : Nat) : twoTo (a + b) = twoTo a * twoTo b :=
  Nat.pow_add 2 a b

theorem twoTo_succ (a : Nat) : twoTo (a + 1) = 2 * twoTo a :=
  (twoTo_add a 1).trans (Nat.mul_comm _ _)

theorem twoTo_pos (a : Nat) : 0 < twoTo a :=
  Nat.pow_pos (by decide)

theorem twoTo_le_twoTo {a b : Nat} (h : a ≤ b) : twoTo a ≤ twoTo b :=
  Nat.pow_le_pow_right (by decide) h

/-- An integer with so many bits, scaled to `b + 1` of them. -/
theorem unscale_of_log2 {b : Nat} (hm : m ≠ 0) (hk : Nat.log2 m = k) :
    twoTo b ≤ (Ratio.unscale ⟨m, 1⟩ ((k : Int) - b)).num /
        (Ratio.unscale ⟨m, 1⟩ ((k : Int) - b)).den ∧
      (Ratio.unscale ⟨m, 1⟩ ((k : Int) - b)).num /
        (Ratio.unscale ⟨m, 1⟩ ((k : Int) - b)).den < twoTo (b + 1) := by
  have hlow : twoTo k ≤ m := hk ▸ Nat.log2_self_le hm
  have hhigh : m < twoTo (k + 1) := hk ▸ Nat.lt_log2_self
  -- a long integer is divided, a short one multiplied
  by_cases hle : b ≤ k
  · obtain ⟨j, rfl⟩ := Nat.exists_eq_add_of_le hle
    have hj : ((b + j : Nat) : Int) - b = (j : Int) := by omega
    have hv : Ratio.unscale ⟨m, 1⟩ (j : Int) = ⟨m, 1 * twoTo j⟩ := by
      rw [Ratio.unscale, if_pos (by omega), Int.toNat_natCast]
    rw [hj, hv]
    simp only [Nat.one_mul]
    rw [Nat.le_div_iff_mul_le (twoTo_pos j), Nat.div_lt_iff_lt_mul (twoTo_pos j), ← twoTo_add,
      ← twoTo_add]
    exact ⟨hlow, by rwa [Nat.add_right_comm]⟩
  · obtain ⟨j, rfl⟩ := Nat.exists_eq_add_of_lt (Nat.lt_of_not_le hle)
    have hj : (k : Int) - ((k + j + 1 : Nat) : Int) = -((j + 1 : Nat) : Int) := by omega
    have hv : Ratio.unscale ⟨m, 1⟩ (-((j + 1 : Nat) : Int)) = ⟨m * twoTo (j + 1), 1⟩ := by
      rw [Ratio.unscale, if_neg (by omega), Int.neg_neg, Int.toNat_natCast]
    rw [hj, hv]
    simp only [Nat.div_one]
    have hpos : 0 < twoTo (j + 1) := twoTo_pos _
    constructor
    · rw [Nat.add_assoc, twoTo_add]
      exact Nat.mul_le_mul_right _ hlow
    · have hsum : k + j + 1 + 1 = k + 1 + (j + 1) := by omega
      rw [hsum, twoTo_add (k + 1)]
      exact (Nat.mul_lt_mul_right hpos).2 hhigh

/-- Of an integer a double keeps 53 bits. -/
theorem lastBit_of_log2 (hm : m ≠ 0) (hk : Nat.log2 m = k) :
    Ratio.lastBit ⟨m, 1⟩ = (k : Int) - 52 := by
  have hone : Nat.log2 1 = 0 := by decide
  have hbits := (unscale_of_log2 (b := 53) hm hk).1
  simp only [Ratio.lastBit, hk, hone]
  have hq : ((k : Int) - ((0 : Nat) : Int) - 53) = (k : Int) - ((53 : Nat) : Int) := by omega
  rw [hq, if_pos hbits]
  omega

/-! ## Infinity -/

/-- The significand of an integer, after rounding. -/
def significand (m k : Nat) : Nat :=
  roundHalfEven (Ratio.unscale ⟨m, 1⟩ ((k : Int) - 52)).num
    (Ratio.unscale ⟨m, 1⟩ ((k : Int) - 52)).den

theorem significand_bounds (hm : m ≠ 0) (hk : Nat.log2 m = k) :
    twoTo 52 ≤ significand m k ∧ significand m k ≤ twoTo 53 := by
  obtain ⟨hlow, hhigh⟩ := unscale_of_log2 (b := 52) hm hk
  exact ⟨Nat.le_trans hlow (div_le_roundHalfEven _ _),
    Nat.le_trans (roundHalfEven_le _ _) hhigh⟩

theorem nearestBits_of_log2 (hm : m ≠ 0) (hk : Nat.log2 m = k) :
    Ratio.nearestBits ⟨m, 1⟩ = min infinityBits ((k + 1022) * twoTo 52 + significand m k) := by
  have hexponent : ((k : Int) - 52 + 1074).toNat = k + 1022 := by omega
  simp only [Ratio.nearestBits, if_neg hm, lastBit_of_log2 hm hk, hexponent, significand]

/-- Among the integers with as many bits as the largest double, those round up
to the next power of two that are at least half a step above it. -/
theorem significand_of_widest :
    twoTo 53 ≤ significand m 1023 ↔ twoTo 1024 - twoTo 970 ≤ m := by
  have hscale : Ratio.unscale ⟨m, 1⟩ ((1023 : Nat) - 52 : Int) = ⟨m, 1 * twoTo 971⟩ := rfl
  have hden : 0 < 1 * twoTo 971 := Nat.mul_pos Nat.one_pos (twoTo_pos 971)
  have hhalf : twoTo 971 = 2 * twoTo 970 := twoTo_succ 970
  have htop : twoTo 1024 = twoTo 54 * twoTo 970 := twoTo_add 54 970
  have hodd : (twoTo 53 - 1) % 2 = 1 := by decide
  have hlast : twoTo 53 - 1 + 1 = twoTo 53 := by decide
  rw [significand, hscale, ← hlast, Nat.succ_le_iff,
    lt_roundHalfEven_of_odd hden hodd, hhalf, htop]
  have hfactor : 2 * (twoTo 53 - 1) + 1 = twoTo 54 - 1 := by decide
  have hvalue : twoTo 54 = 18014398509481984 := by decide
  simp only [hfactor, Nat.one_mul]
  rw [hvalue]
  omega

theorem nearestBits_eq_infinityBits :
    Ratio.nearestBits ⟨m, 1⟩ = infinityBits ↔ twoTo 1024 - twoTo 970 ≤ m := by
  have hstep : twoTo 970 ≤ twoTo 1023 := twoTo_le_twoTo (by decide)
  have hdouble : twoTo 1024 = 2 * twoTo 1023 := twoTo_succ 1023
  have hinfinity : infinityBits = 2047 * twoTo 52 := rfl
  have hpair : twoTo 53 = 2 * twoTo 52 := by decide
  by_cases hm : m = 0
  · subst hm
    have hpos : 0 < twoTo 1023 := twoTo_pos 1023
    have hzero : Ratio.nearestBits ⟨0, 1⟩ = 0 := rfl
    have hbits : 0 < infinityBits := by decide
    rw [hzero]
    exact iff_of_false (by omega) (by omega)
  obtain ⟨k, hk⟩ : ∃ k, Nat.log2 m = k := ⟨_, rfl⟩
  obtain ⟨hlow, hhigh⟩ := significand_bounds hm hk
  have hm' : twoTo k ≤ m := hk ▸ Nat.log2_self_le hm
  have hlt : m < twoTo (k + 1) := hk ▸ Nat.lt_log2_self
  rw [nearestBits_of_log2 hm hk, min_eq_left_iff, hinfinity]
  rcases Nat.lt_trichotomy k 1023 with hless | rfl | hmore
  · -- even a significand that is rounded up does not reach the last exponent
    have hbelow : twoTo (k + 1) ≤ twoTo 1023 := twoTo_le_twoTo hless
    refine iff_of_false ?_ (by omega)
    have hexponent : (k + 1022) * twoTo 52 ≤ 2044 * twoTo 52 :=
      Nat.mul_le_mul_right _ (by omega)
    have hpos : 0 < twoTo 52 := twoTo_pos 52
    omega
  · rw [← significand_of_widest]
    omega
  · -- the exponent alone is that of infinity
    have habove : twoTo 1024 ≤ twoTo k := twoTo_le_twoTo hmore
    refine iff_of_true ?_ (by omega)
    have hexponent : 2046 * twoTo 52 ≤ (k + 1022) * twoTo 52 :=
      Nat.mul_le_mul_right _ (by omega)
    omega

/-- **An integer has no nearest double** exactly when it is at least half a
step above the largest one, on either side of zero. -/
theorem floatOfInt?_eq_none {n : Int} :
    floatOfInt? n = none ↔ twoTo 1024 - twoTo 970 ≤ n.natAbs := by
  rw [← nearestBits_eq_infinityBits]
  simp only [floatOfInt?]
  split
  · next h => exact iff_of_true rfl h
  · next h => exact iff_of_false (by simp) h

end Number

end ApiSnippets
