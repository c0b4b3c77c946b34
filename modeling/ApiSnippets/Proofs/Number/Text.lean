import Mathlib.Data.List.Basic
import ApiSnippets.Naming
import ApiSnippets.Number.Text
/-!
# The characters of numbers

A number is written with letters, digits, signs and a point, whatever its
value; infinity and what is no number are spelled with letters.
-/

namespace ApiSnippets

namespace Number

variable {c : Char} {cs ds : List Char}

/-- A character that numbers are written with. -/
def isWritten (c : Char) : Bool :=
  Naming.isWordChar c || ['+', '-', '.'].contains c

/-- A text of characters that numbers are written with. -/
def IsWritten (s : String) : Prop :=
  ∀ c ∈ s.toList, isWritten c = true

instance (s : String) : Decidable (IsWritten s) :=
  decidable_of_iff (s.toList.all isWritten = true) List.all_eq_true

theorem IsWritten.append {s t : String} (hs : IsWritten s) (ht : IsWritten t) :
    IsWritten (s ++ t) := by
  rw [IsWritten, String.toList_append]
  exact List.forall_mem_append.2 ⟨hs, ht⟩

theorem IsWritten.ite {p : Prop} [Decidable p] {s t : String} (hs : IsWritten s)
    (ht : IsWritten t) : IsWritten (if p then s else t) := by
  split
  · exact hs
  · exact ht

theorem isWritten_ofList (h : ∀ c ∈ cs, isWritten c = true) : IsWritten (String.ofList cs) := by
  rwa [IsWritten, String.toList_ofList]

theorem isWritten_zeros (n : Nat) : ∀ c ∈ List.replicate n '0', isWritten c = true := by
  intro c hc
  rw [List.eq_of_mem_replicate hc]
  rfl

/-! ## Integers -/

theorem isWordChar_of_mem_toString {c : Char} {n : Nat} (hc : c ∈ (toString n).toList) :
    Naming.isWordChar c = true := by
  rw [Nat.toString_eq_ofList_toDigits, String.toList_ofList] at hc
  have hdigit : Naming.isNumeral c = true := Nat.isDigit_of_mem_toDigits (by decide) (by decide) hc
  simp [Naming.isWordChar, hdigit]

theorem isWritten_nat (n : Nat) : IsWritten (toString n) := by
  intro c hc
  simp [isWritten, isWordChar_of_mem_toString hc]

theorem isWritten_int (n : Int) : IsWritten (toString n) := by
  cases n with
  | ofNat n => exact isWritten_nat n
  | negSucc n => exact IsWritten.append (s := "-") (by decide) (isWritten_nat (n + 1))

theorem isWritten_padded (width n : Nat) : IsWritten (padded width n) :=
  (isWritten_ofList (isWritten_zeros _)).append (isWritten_nat n)

/-! ## Doubles -/

theorem isWritten_digitChars (d : Decimal) : ∀ c ∈ d.digitChars, isWritten c = true := by
  have htrimmed : ∀ c ∈ Text.trimEnd (· == '0') (toString d.digits).toList, isWritten c = true := by
    intro c hc
    rw [Text.trimEnd, List.mem_reverse] at hc
    exact isWritten_nat d.digits c (List.mem_reverse.1 ((List.dropWhile_sublist _).mem hc))
  unfold Decimal.digitChars
  split
  · exact isWritten_zeros 1
  · exact htrimmed

theorem isWritten_arrange (l : Layout) (top : Int) (h : ∀ c ∈ cs, isWritten c = true) :
    IsWritten (l.arrange cs top) := by
  have htake (n : Nat) : ∀ c ∈ cs.take n, isWritten c = true := fun c hc =>
    h c (List.mem_of_mem_take hc)
  have hdrop (n : Nat) : IsWritten (String.ofList (cs.drop n)) :=
    isWritten_ofList fun c hc => h c (List.mem_of_mem_drop hc)
  have hpoint : IsWritten "." := by decide
  unfold Layout.arrange
  split
  · refine .ite ?_ ?_
    · have hzero : IsWritten "0." := by decide
      exact hzero.append (isWritten_ofList (List.forall_mem_append.2 ⟨isWritten_zeros _, h⟩))
    · have hbefore := isWritten_ofList (List.forall_mem_append.2
        ⟨htake (top.toNat + 1), isWritten_zeros (top.toNat + 1 - cs.length)⟩)
      have hnone : IsWritten "0" := by decide
      exact (hbefore.append hpoint).append (.ite hnone (hdrop _))
  · have hfraction : IsWritten
        (if (cs.drop 1).isEmpty then "" else "." ++ String.ofList (cs.drop 1)) :=
      .ite (by decide) (hpoint.append (hdrop 1))
    have hmantissa := (isWritten_ofList (htake 1)).append hfraction
    have hexponent : IsWritten "e" := by decide
    have hsign : IsWritten (if top < 0 then "-" else "+") := .ite (by decide) (by decide)
    exact ((hmantissa.append hexponent).append hsign).append (isWritten_padded _ _)

/-- **Every double is written** with letters, digits, signs and points. -/
theorem isWritten_floatText (x : Float) : IsWritten (floatText x) := by
  have hsign (negative : Bool) : IsWritten (if negative then "-" else "") :=
    .ite (by decide) (by decide)
  have hzero : IsWritten "0.0" := by decide
  unfold floatText Layout.writeBits
  split
  · decide
  · exact (hsign _).append (by decide)
  · have hdigits (d : Decimal) (top : Int) : IsWritten (plainLayout.arrange d.digitChars top) :=
      isWritten_arrange _ _ (isWritten_digitChars d)
    exact .ite ((hsign _).append hzero) ((hsign _).append (hdigits _ _))

end Number

end ApiSnippets
