import ApiSnippets.Proofs.Text.Case
/-!
# Lower case of lower case

A text in lower case is its own lower case (`lower_lower`): no run of the case
table moves a letter to where another run, or itself, moves letters from.
-/

namespace ApiSnippets

namespace Text

variable {c d : Char} {cs : List Char}

/-! ## The table -/

/-- No code point that a run moves letters to, from `low` to `high`, is one that
this run moves letters from: it lies before or behind it, or between its
letters. -/
def CaseRun.avoids (low high step : Nat) (r : CaseRun) : Bool :=
  Nat.blt high r.first || Nat.blt r.last low ||
    ((Nat.beq step 2 || Nat.beq low high) && Nat.beq r.step 2 &&
      Nat.beq ((low + r.first) % 2) 1)

theorem avoids_lowerRuns : (Table.lowerRuns.all fun r => decide (0 ≤ r.first + r.shift) &&
    Table.lowerRuns.all
      (CaseRun.avoids (r.first + r.shift).toNat (r.last + r.shift).toNat r.step)) = true := by
  decide +kernel

/-- **A letter that was moved is not moved again.** -/
theorem not_covers_shifted {r s : CaseRun} {n : Nat} (hr : r ∈ Table.lowerRuns)
    (hs : s ∈ Table.lowerRuns) (h : r.covers n = true) :
    s.covers (n + r.shift).toNat = false := by
  have hall := List.all_eq_true.1 avoids_lowerRuns r hr
  rw [Bool.and_eq_true, decide_eq_true_eq] at hall
  obtain ⟨hpositive, havoids⟩ := hall
  have havoids := List.all_eq_true.1 havoids s hs
  simp only [CaseRun.covers, Bool.and_eq_true, decide_eq_true_eq, beq_iff_eq] at h
  obtain ⟨⟨hfirst, hlast⟩, hstep⟩ := h
  simp only [CaseRun.avoids, Bool.or_eq_true, Bool.and_eq_true, Nat.blt_eq, Nat.beq_eq] at havoids
  rw [← Bool.not_eq_true]
  simp only [CaseRun.covers, Bool.and_eq_true, decide_eq_true_eq, beq_iff_eq]
  rintro ⟨⟨hfirst', hlast'⟩, hstep'⟩
  rcases havoids with (hbefore | hbehind) | ⟨⟨hsame | hsingle, htwo⟩, hodd⟩
  · omega
  · omega
  · rw [hsame] at hstep
    rw [htwo] at hstep'
    omega
  · rw [htwo] at hstep'
    omega

theorem shiftCase_shiftCase (n : Nat) : shiftCase Table.lowerRuns (shiftCase Table.lowerRuns n) =
    shiftCase Table.lowerRuns n := by
  unfold shiftCase
  cases h : Table.lowerRuns.find? (·.covers n) with
  | none => simp [h]
  | some r =>
    have hcovers : r.covers n = true := by simpa using List.find?_some h
    have hnone : Table.lowerRuns.find? (·.covers (n + r.shift).toNat) = none := by
      refine List.find?_eq_none.2 fun s hs => ?_
      simp [not_covers_shifted (List.mem_of_find?_eq_some h) hs hcovers]
    simp only [hnone]

/-- No run moves a letter to the dotted capital I, which has a lower case of
its own. -/
theorem shiftCase_ne_dotted {n : Nat} (hn : n ≠ 0x130) : shiftCase Table.lowerRuns n ≠ 0x130 := by
  have hruns : ∀ r ∈ Table.lowerRuns, r.covers (0x130 - r.shift).toNat = false := by
    decide +kernel
  unfold shiftCase
  cases h : Table.lowerRuns.find? (·.covers n) with
  | none => exact hn
  | some r =>
    have hcovers : r.covers n = true := by simpa using List.find?_some h
    intro hmoved
    have hback : (0x130 - r.shift).toNat = n := by
      dsimp only at hmoved
      omega
    have hnone := hruns r (List.mem_of_find?_eq_some h)
    rw [hback, hcovers] at hnone
    cases hnone

/-! ## Characters -/

/-- A character that lower case leaves as it is, wherever it stands. -/
def IsLowered (c : Char) : Prop :=
  c ≠ 'Σ' ∧ lowerChar c = [c]

instance : DecidablePred IsLowered :=
  fun c => inferInstanceAs (Decidable (c ≠ 'Σ' ∧ lowerChar c = [c]))

theorem isLowered_of_ascii (hc : c.toNat < 128) : IsLowered c.toLower :=
  of_ascii (P := fun c => IsLowered c.toLower) (by decide +kernel) hc

theorem isLowered_shiftCase {n : Nat} (hn : ¬ n < 128) (hdotted : n ≠ 0x130) :
    IsLowered (Char.ofNat (shiftCase Table.lowerRuns n)) := by
  obtain ⟨m, hm⟩ : ∃ m, m = shiftCase Table.lowerRuns n := ⟨_, rfl⟩
  have hfixed : shiftCase Table.lowerRuns m = m := by rw [hm, shiftCase_shiftCase]
  have hspecial : m ≠ 0x130 := by rw [hm]; exact shiftCase_ne_dotted hdotted
  have hsigma : m ≠ 0x3A3 := by
    rintro rfl
    exact absurd hfixed (by decide +kernel)
  rw [← hm]
  by_cases hzero : (Char.ofNat m).toNat = 0
  · rw [← Char.ofNat_toNat (Char.ofNat m), hzero]
    decide +kernel
  have hcode : (Char.ofNat m).toNat = m := toNat_of_ofNat_eq rfl hzero
  refine ⟨fun h => hsigma (by rw [← hcode, h]; rfl), ?_⟩
  by_cases hascii : m < 128
  · obtain rfl := shiftCase_lowerRuns hn (hm ▸ hascii)
    rw [hm]
    decide +kernel
  · rw [lowerChar, hcode, if_neg hascii, Table.lowerSpecial, List.lookup_cons,
      beq_eq_false_iff_ne.2 hspecial, hfixed]
    rfl

theorem isLowered_of_mem_lowerChar (hd : d ∈ lowerChar c) : IsLowered d := by
  by_cases hascii : c.toNat < 128
  · rw [lowerChar_of_ascii hascii, List.mem_singleton] at hd
    exact hd ▸ isLowered_of_ascii hascii
  · rw [lowerChar, if_neg hascii, Table.lowerSpecial, List.lookup_cons] at hd
    by_cases hdotted : c.toNat = 0x130
    · have hforms : ∀ d ∈ [0x69, 0x307].map Char.ofNat, IsLowered d :=
        forall_of_all (by decide +kernel)
      rw [hdotted] at hd
      exact hforms d hd
    · rw [beq_eq_false_iff_ne.2 hdotted] at hd
      obtain rfl := List.mem_singleton.1 hd
      exact isLowered_shiftCase hascii hdotted

theorem isLowered_of_mem_lowerForms {ds : List Char} (hds : ds ∈ lowerForms c) (hd : d ∈ ds) :
    IsLowered d := by
  rcases mem_lowerForms hds with ⟨-, rfl | rfl⟩ | ⟨-, rfl⟩
  · obtain rfl := List.mem_singleton.1 hd
    decide +kernel
  · obtain rfl := List.mem_singleton.1 hd
    decide +kernel
  · exact isLowered_of_mem_lowerChar hd

/-! ## Texts -/

theorem Lowers.isLowered {ls : List Char} (h : Lowers cs ls) : ∀ d ∈ ls, IsLowered d := by
  induction h with
  | nil => nofun
  | cons hds _ ih => exact List.forall_mem_append.2 ⟨fun d => isLowered_of_mem_lowerForms hds, ih⟩

theorem lowerFrom_of_isLowered (afterCased : Bool) (h : ∀ c ∈ cs, IsLowered c) :
    lowerFrom afterCased cs = cs := by
  induction cs generalizing afterCased with
  | nil => rfl
  | cons c cs ih =>
    obtain ⟨⟨hsigma, hlower⟩, hcs⟩ := List.forall_mem_cons.1 h
    rw [lowerFrom, if_neg hsigma, hlower, ih _ hcs, List.singleton_append]

/-- **A text in lower case is its own lower case.** -/
@[simp] theorem lower_lower (s : String) : lower (lower s) = lower s := by
  have hlowered := lowerFrom_of_isLowered false (lowers_lowerChars s.toList).isLowered
  rw [lower, lower, String.toList_ofList, lowerChars, hlowered]

end Text

end ApiSnippets
