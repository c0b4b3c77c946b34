import Mathlib.Data.List.TakeWhile
import ApiSnippets.Proofs.Text.Case
/-!
# Folding the letters of ASCII

A text with the letters of ASCII in lower case and every other character left
alone. Folding goes character by character, so unlike lower case it passes
through everything that takes a text apart; and it loses nothing that lower
case keeps (`lower_folded`). Two texts of ASCII with the same letters fold to
the same text (`folded_eq_of_sameLetters`), and are taken apart alike.
-/

namespace ApiSnippets

namespace Text

variable {c d : Char} {cs ds : List Char} {s t : String} {p : Char → Bool}

/-! ## One character -/

theorem toLower_of_beyond (hc : ¬ c.toNat < 128) : c.toLower = c := by
  have hupper : ¬ (c.val ≥ 'A'.val ∧ c.val ≤ 'Z'.val) := by
    rintro ⟨-, hle⟩
    have hbound : c.toNat ≤ 90 := UInt32.le_iff_toNat_le.1 hle
    omega
  exact dif_neg hupper

/-- What a text is cut by, and what its lower case looks at, cannot tell a letter
of ASCII from its lower case. -/
theorem classes_toLower (c : Char) :
    (isBlank c.toLower = isBlank c ∧ isWord c.toLower = isWord c ∧ isDigit c.toLower = isDigit c) ∧
      (isCased c.toLower = isCased c ∧ isCaseIgnorable c.toLower = isCaseIgnorable c) ∧
        lowerChar c.toLower = lowerChar c ∧ (c.toLower = 'Σ' ↔ c = 'Σ') := by
  by_cases hc : c.toNat < 128
  · exact of_ascii (P := fun c =>
      (isBlank c.toLower = isBlank c ∧ isWord c.toLower = isWord c ∧
          isDigit c.toLower = isDigit c) ∧
        (isCased c.toLower = isCased c ∧ isCaseIgnorable c.toLower = isCaseIgnorable c) ∧
          lowerChar c.toLower = lowerChar c ∧ (c.toLower = 'Σ' ↔ c = 'Σ')) (by decide +kernel) hc
  · simp only [toLower_of_beyond hc, and_self]

theorem isBlank_toLower (c : Char) : isBlank c.toLower = isBlank c :=
  (classes_toLower c).1.1

theorem isWord_toLower (c : Char) : isWord c.toLower = isWord c :=
  (classes_toLower c).1.2.1

theorem isDigit_toLower (c : Char) : isDigit c.toLower = isDigit c :=
  (classes_toLower c).1.2.2

theorem isCased_toLower (c : Char) : isCased c.toLower = isCased c :=
  (classes_toLower c).2.1.1

theorem isCaseIgnorable_toLower (c : Char) : isCaseIgnorable c.toLower = isCaseIgnorable c :=
  (classes_toLower c).2.1.2

theorem lowerChar_toLower (c : Char) : lowerChar c.toLower = lowerChar c :=
  (classes_toLower c).2.2.1

/-- Only a character without letter case has one as its lower case. -/
theorem toLower_eq_iff (hd : isCaseless d = true) : c.toLower = d ↔ c = d := by
  have hd := (isCaseless_iff.1 hd).2
  have hcase : isAsciiLetter c.toLower = isAsciiLetter c ∧
      (isAsciiLetter c = false → c.toLower = c) := by
    by_cases hascii : c.toNat < 128
    · exact (toLower_of_ascii hascii).2.2
    · rw [toLower_of_beyond hascii]
      exact ⟨rfl, fun _ => rfl⟩
  obtain ⟨hletter, hsame⟩ := hcase
  cases hc : isAsciiLetter c with
  | true =>
    rw [hc] at hletter
    have hleft : c.toLower ≠ d := by
      rintro rfl
      simp [hd] at hletter
    have hright : c ≠ d := by
      rintro rfl
      simp [hd] at hc
    simp [hleft, hright]
  | false => rw [hsame hc]

/-! ## Taking apart -/

/-- The characters with the letters of ASCII in lower case. -/
def fold (cs : List Char) : List Char :=
  cs.map Char.toLower

@[simp] theorem fold_nil : fold [] = [] := rfl

@[simp] theorem fold_cons : fold (c :: cs) = c.toLower :: fold cs := rfl

theorem fold_reverse : (fold cs).reverse = fold cs.reverse :=
  List.map_reverse.symm

theorem takeWhile_fold (h : ∀ c, p c.toLower = p c) :
    (fold cs).takeWhile p = fold (cs.takeWhile p) := by
  rw [fold, List.takeWhile_map, show p ∘ Char.toLower = p from funext h, fold]

theorem dropWhile_fold (h : ∀ c, p c.toLower = p c) :
    (fold cs).dropWhile p = fold (cs.dropWhile p) := by
  rw [fold, List.dropWhile_map, show p ∘ Char.toLower = p from funext h, fold]

theorem all_fold (h : ∀ c, p c.toLower = p c) : (fold cs).all p = cs.all p := by
  rw [fold, List.all_map, show p ∘ Char.toLower = p from funext h]

theorem beq_toLower (hd : isCaseless d = true) (c : Char) : (c.toLower == d) = (c == d) := by
  rw [Bool.eq_iff_iff, beq_iff_eq, beq_iff_eq, toLower_eq_iff hd]

theorem bne_toLower (hd : isCaseless d = true) (c : Char) : (c.toLower != d) = (c != d) := by
  rw [bne, bne, beq_toLower hd]

theorem mem_fold (hd : isCaseless d = true) : d ∈ fold cs ↔ d ∈ cs := by
  simp [fold, toLower_eq_iff hd]

theorem strip_fold : strip (fold cs) = fold (strip cs) := by
  rw [strip, strip, trim, trim, trimEnd, trimEnd, dropWhile_fold isBlank_toLower, fold_reverse,
    dropWhile_fold isBlank_toLower, fold_reverse]

theorem isBlankText_fold : isBlankText (fold cs) = isBlankText cs :=
  all_fold isBlank_toLower

/-- A folded text is cut where the text is cut. -/
theorem cutAt_fold (hd : isCaseless d = true) :
    cutAt d (fold cs) = (fold (cutAt d cs).1, (cutAt d cs).2.map fold) := by
  rw [cutAt, cutAt, dropWhile_fold (bne_toLower hd), takeWhile_fold (bne_toLower hd)]
  cases cs.dropWhile (· != d) <;> rfl

theorem afterLast_fold (hd : isCaseless d = true) :
    afterLast d (fold cs) = fold (afterLast d cs) := by
  rw [afterLast, afterLast, fold_reverse, takeWhile_fold (bne_toLower hd), fold_reverse]

/-- A doubled character is read as one before folding or after. -/
theorem replacePair_fold (hd : isCaseless d = true) (cs : List Char) :
    replacePair d d [d] (fold cs) = fold (replacePair d d [d] cs) := by
  have hd' : d.toLower = d := (toLower_eq_iff hd).2 rfl
  induction cs using replacePair.induct d d with
  | case1 => rfl
  | case2 c => rfl
  | case3 c c' cs hpair ih =>
    obtain ⟨rfl, rfl⟩ := hpair
    simp [replacePair, hd', ih]
  | case4 c c' cs hpair ih =>
    have hpair' : ¬ (c.toLower = d ∧ c'.toLower = d) := by
      rwa [toLower_eq_iff hd, toLower_eq_iff hd]
    rw [fold_cons] at ih
    simp only [fold_cons, replacePair, if_neg hpair, if_neg hpair', ih]

/-! ## Lower case -/

theorem lowerFrom_fold (afterCased : Bool) :
    lowerFrom afterCased (fold cs) = lowerFrom afterCased cs := by
  have hahead : ∀ ds : List Char, casedAhead (fold ds) = casedAhead ds := by
    intro ds
    rw [casedAhead, casedAhead, dropWhile_fold isCaseIgnorable_toLower]
    cases ds.dropWhile isCaseIgnorable with
    | nil => rfl
    | cons d ds => exact isCased_toLower d
  induction cs generalizing afterCased with
  | nil => rfl
  | cons c cs ih =>
    rw [fold_cons, lowerFrom, lowerFrom, hahead, lowerChar_toLower, isCased_toLower,
      isCaseIgnorable_toLower, ih]
    simp only [(classes_toLower c).2.2.2]

/-- **Lower case loses what folding loses.** -/
theorem lowerChars_fold : lowerChars (fold cs) = lowerChars cs :=
  lowerFrom_fold false

/-- **The lower case of a text of ASCII** is what it is folded to. -/
theorem lowerChars_of_ascii (h : ∀ c ∈ cs, c.toNat < 128) : lowerChars cs = fold cs := by
  have hfrom : ∀ afterCased, lowerFrom afterCased cs = fold cs := by
    induction cs with
    | nil => exact fun _ => rfl
    | cons c cs ih =>
      intro afterCased
      obtain ⟨hc, hcs⟩ := List.forall_mem_cons.1 h
      have hsigma : c ≠ 'Σ' := by
        rintro rfl
        exact absurd hc (by decide)
      rw [lowerFrom, if_neg hsigma, lowerChar_of_ascii hc, ih hcs]
      rfl
  exact hfrom false

/-! ## Texts -/

/-- The text with the letters of ASCII in lower case. -/
def folded (s : String) : String :=
  String.ofList (fold s.toList)

@[simp] theorem toList_folded : (folded s).toList = fold s.toList :=
  String.toList_ofList

theorem folded_ofList : folded (String.ofList cs) = String.ofList (fold cs) := by
  rw [folded, String.toList_ofList]

theorem lower_folded : lower (folded s) = lower s := by
  rw [lower, lower, toList_folded, lowerChars_fold]

theorem lower_eq_of_folded (h : folded s = folded t) : lower s = lower t := by
  rw [← @lower_folded s, h, lower_folded]

/-- **Texts of ASCII with the same letters** fold to the same text. -/
theorem folded_eq_of_sameLetters (hs : ∀ c ∈ s.toList, c.toNat < 128)
    (ht : ∀ c ∈ t.toList, c.toNat < 128) (h : sameLetters s t = true) : folded s = folded t := by
  have hlower : lower s = lower t := eq_of_beq h
  rwa [lower, lower, lowerChars_of_ascii hs, lowerChars_of_ascii ht] at hlower

theorem hasChar_folded (hd : isCaseless d = true) : hasChar d (folded s) = hasChar d s := by
  rw [Bool.eq_iff_iff]
  simp [hasChar, mem_fold hd]

theorem isPrefixOf_fold (hds : ds.all isCaseless = true) (cs : List Char) :
    ds.isPrefixOf (fold cs) = ds.isPrefixOf cs := by
  induction ds generalizing cs with
  | nil => rw [List.isPrefixOf_nil_left, List.isPrefixOf_nil_left]
  | cons d ds ih =>
    obtain ⟨hd, hds⟩ := Bool.and_eq_true_iff.1 hds
    cases cs with
    | nil => rfl
    | cons c cs =>
      have hhead : (d == c.toLower) = (d == c) := by
        rw [BEq.comm, beq_toLower hd, BEq.comm]
      rw [fold_cons, List.isPrefixOf, List.isPrefixOf, ih hds, hhead]

theorem hasStart_folded (ht : t.toList.all isCaseless = true) (s : String) :
    hasStart t (folded s) = hasStart t s := by
  rw [hasStart, hasStart, toList_folded, isPrefixOf_fold ht]

theorem hasEnd_folded (ht : t.toList.all isCaseless = true) (s : String) :
    hasEnd t (folded s) = hasEnd t s := by
  rw [hasEnd, hasEnd, toList_folded, List.isSuffixOf, List.isSuffixOf, fold_reverse,
    isPrefixOf_fold (by rw [List.all_reverse, ht])]

theorem lastComponent_folded : lastComponent (folded s) = folded (lastComponent s) := by
  rw [lastComponent, lastComponent, toList_folded, afterLast_fold (by decide), folded_ofList]

end Text

end ApiSnippets
