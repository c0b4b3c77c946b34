import Mathlib.Data.List.Basic
import ApiSnippets.Naming
/-!
# The characters of names

Whatever a name is made of, recasing leaves ASCII letters and digits only,
and underscores in snake case.
-/

namespace ApiSnippets

namespace Naming

variable {c d : Char} {w cs : List Char} {ws : List (List Char)}

/-! ## Characters of words -/

/-- What holds of all ASCII characters holds of every character of a word. -/
theorem of_isWordChar {P : Char → Prop}
    (h : ∀ n < 128, isWordChar (Char.ofNat n) = true → P (Char.ofNat n))
    (hc : isWordChar c = true) : P c := by
  have hascii : c.toNat < 128 := by
    simp only [isWordChar, isLower, isUpper, isNumeral, Bool.or_eq_true, Bool.and_eq_true,
      decide_eq_true_eq, Char.le_def, UInt32.le_iff_toNat_le] at hc
    simp only [Char.toNat]
    rcases hc with (⟨-, hc⟩ | ⟨-, hc⟩) | ⟨-, hc⟩ <;> exact Nat.lt_of_le_of_lt hc (by decide)
  rw [← Char.ofNat_toNat c] at hc ⊢
  exact h _ hascii hc

theorem isWordChar_upperChar (hc : isWordChar c = true) :
    ∀ d ∈ Text.upperChar c, isWordChar d = true :=
  List.all_eq_true.1 <|
    of_isWordChar (P := fun c => (Text.upperChar c).all isWordChar = true) (by decide +kernel) hc

theorem isWordChar_lowerChar (hc : isWordChar c = true) :
    ∀ d ∈ Text.lowerChar c, isWordChar d = true :=
  List.all_eq_true.1 <|
    of_isWordChar (P := fun c => (Text.lowerChar c).all isWordChar = true) (by decide +kernel) hc

theorem isWordChar_capitalize (h : ∀ c ∈ cs, isWordChar c = true) :
    ∀ c ∈ Text.capitalize cs, isWordChar c = true := by
  cases cs with
  | nil => exact h
  | cons c cs =>
    obtain ⟨hc, hcs⟩ := List.forall_mem_cons.1 h
    exact List.forall_mem_append.2 ⟨isWordChar_upperChar hc, hcs⟩

theorem isWordChar_lowerFrom {afterCased : Bool} (h : ∀ c ∈ cs, isWordChar c = true) :
    ∀ c ∈ Text.lowerFrom afterCased cs, isWordChar c = true := by
  induction cs generalizing afterCased with
  | nil => exact h
  | cons c cs ih =>
    obtain ⟨hc, hcs⟩ := List.forall_mem_cons.1 h
    have hsigma : c ≠ 'Σ' := by
      rintro rfl
      exact absurd hc (by decide)
    rw [Text.lowerFrom, if_neg hsigma]
    exact List.forall_mem_append.2 ⟨isWordChar_lowerChar hc, ih hcs⟩

theorem isWordChar_decapitalize (h : ∀ c ∈ cs, isWordChar c = true) :
    ∀ c ∈ Text.decapitalize cs, isWordChar c = true := by
  cases cs with
  | nil => exact h
  | cons c cs =>
    obtain ⟨hc, hcs⟩ := List.forall_mem_cons.1 h
    exact List.forall_mem_append.2 ⟨isWordChar_lowerFrom (by simpa using hc), hcs⟩

/-! ## Words -/

theorem mem_extend (h : w ∈ extend c ws) : w = [c] ∨ (∃ v ∈ ws, w = c :: v) ∨ w ∈ ws := by
  cases ws with
  | nil => exact .inl (List.mem_singleton.1 h)
  | cons v ws =>
    rcases List.mem_cons.1 h with rfl | h
    · exact .inr (.inl ⟨v, List.mem_cons_self, rfl⟩)
    · exact .inr (.inr (List.mem_cons_of_mem _ h))

theorem isWordChar_of_mem_wordsOf (hw : w ∈ wordsOf cs) : ∀ c ∈ w, isWordChar c = true := by
  fun_induction wordsOf cs generalizing w with
  | case1 => cases hw
  | case2 c hc =>
    obtain rfl := List.mem_singleton.1 hw
    simpa using hc
  | case3 c hc d after hend ih =>
    rcases List.mem_cons.1 hw with rfl | hw
    · simpa using hc
    · exact ih hw
  | case4 c hc d after hend ih =>
    rcases mem_extend hw with rfl | ⟨v, hv, rfl⟩ | hw
    · simpa using hc
    · exact List.forall_mem_cons.2 ⟨hc, ih hv⟩
    · exact ih hw
  | case5 c cs hc ih => exact ih hw

theorem flatten_extend (c : Char) (ws : List (List Char)) :
    (extend c ws).flatten = c :: ws.flatten := by
  cases ws <;> rfl

/-- **The words of a name, one after the other,** are its letters and digits. -/
theorem flatten_wordsOf (cs : List Char) : (wordsOf cs).flatten = cs.filter isWordChar := by
  fun_induction wordsOf cs with
  | case1 => rfl
  | case2 c hc =>
    rw [List.filter_cons_of_pos hc]
    rfl
  | case3 c hc d after hend ih =>
    rw [List.flatten_cons, ih, List.filter_cons_of_pos hc]
    rfl
  | case4 c hc d after hend ih => rw [flatten_extend, ih, List.filter_cons_of_pos hc]
  | case5 c cs hc ih => rw [ih, List.filter_cons_of_neg hc]

/-! ## Casings -/

/-- **A name in Pascal case** consists of letters and digits. -/
theorem isWordChar_of_mem_pascalChars (h : c ∈ pascalChars cs) : isWordChar c = true := by
  obtain ⟨w, hw, hc⟩ := List.mem_flatMap.1 h
  exact isWordChar_capitalize (isWordChar_of_mem_wordsOf hw) c hc

/-- **A name in camel case** consists of letters and digits. -/
theorem isWordChar_of_mem_camelChars (h : c ∈ camelChars cs) : isWordChar c = true :=
  isWordChar_decapitalize (fun _ => isWordChar_of_mem_pascalChars) c h

theorem mem_join {sep : List Char} (h : c ∈ Text.join sep ws) : c ∈ sep ∨ ∃ w ∈ ws, c ∈ w := by
  induction ws with
  | nil => cases h
  | cons w ws ih =>
    cases ws with
    | nil => exact .inr ⟨w, List.mem_singleton_self w, h⟩
    | cons v ws =>
      have hcut : c ∈ w ++ sep ++ Text.join sep (v :: ws) := h
      rw [List.mem_append, List.mem_append] at hcut
      rcases hcut with (hw | hsep) | hmore
      · exact .inr ⟨w, List.mem_cons_self, hw⟩
      · exact .inl hsep
      · obtain hsep | ⟨u, hu, hc⟩ := ih hmore
        · exact .inl hsep
        · exact .inr ⟨u, List.mem_cons_of_mem _ hu, hc⟩

/-- **A name in snake case** consists of letters, digits and underscores. -/
theorem isWordChar_of_mem_snakeChars (h : c ∈ snakeChars cs) : isWordChar c = true ∨ c = '_' := by
  have hjoined : ∀ d ∈ Text.join ['_'] ((wordsOf cs).map Text.lowerChars),
      isWordChar d = true ∨ d = '_' := by
    intro d hd
    rcases mem_join hd with hd | ⟨w, hw, hd⟩
    · exact .inr (List.mem_singleton.1 hd)
    · obtain ⟨v, hv, rfl⟩ := List.mem_map.1 hw
      exact .inl (isWordChar_lowerFrom (isWordChar_of_mem_wordsOf hv) d hd)
  unfold snakeChars at h
  split at h
  · have hvalue : "value".toList.all isWordChar = true := by decide
    exact .inl (List.all_eq_true.1 hvalue c h)
  · next first rest hcs =>
    rw [hcs] at hjoined
    split at h
    · rcases List.mem_cons.1 h with rfl | h
      · exact .inr rfl
      · exact hjoined c h
    · exact hjoined c h

end Naming

end ApiSnippets
