import ApiSnippets.Text.Nesting
/-!
# Where a scanner cuts

A cut depends on what stands before it only through the state of the scanner.
So a text cut at a separator met outside of everything is cut on both sides
of it alone (`cutOutside_append_sep`), and a piece without such a separator
stays whole.
-/

namespace ApiSnippets

namespace Text

variable {strict : Bool} {sep : Char}

namespace Nesting

/-- The scanner after a text. -/
def after (strict : Bool) (n : Nesting) (cs : List Char) : Nesting :=
  cs.foldl (step strict) n

@[simp] theorem after_nil {n : Nesting} : after strict n [] = n := rfl

@[simp] theorem after_cons {n : Nesting} {c : Char} {cs : List Char} :
    after strict n (c :: cs) = after strict (n.step strict c) cs := rfl

theorem after_append {n : Nesting} {cs ds : List Char} :
    after strict n (cs ++ ds) = after strict (after strict n cs) ds :=
  List.foldl_append

@[simp] theorem isOutside_outside : isOutside outside = true := rfl

theorem isOutside_iff {n : Nesting} : n.isOutside = true ↔ n = outside := by
  obtain ⟨depth, quoted⟩ := n
  simp [isOutside, outside]

/-- Whether a character can change where a scanner stands. -/
def isMark (c : Char) : Bool :=
  c == '\'' || c == '(' || c == ')'

theorem step_of_not_isMark {n : Nesting} {c : Char} (h : isMark c = false) :
    n.step strict c = n := by
  simp only [isMark, Bool.or_eq_false_iff, beq_eq_false_iff_ne, ne_eq] at h
  obtain ⟨⟨hquote, hopen⟩, hclose⟩ := h
  simp [step, hquote, hopen, hclose]

theorem after_of_not_isMark {n : Nesting} {cs : List Char} (h : ∀ c ∈ cs, isMark c = false) :
    after strict n cs = n := by
  induction cs with
  | nil => rfl
  | cons c cs ih =>
    rw [after_cons, step_of_not_isMark (h c List.mem_cons_self)]
    exact ih fun d hd => h d (List.mem_cons_of_mem _ hd)

/-- Without parentheses a strict scanner stays outside, whatever quotes it
meets. -/
theorem after_of_no_parentheses {cs : List Char} (h : ∀ c ∈ cs, c ≠ '(' ∧ c ≠ ')') :
    after true outside cs = outside := by
  induction cs with
  | nil => rfl
  | cons c cs ih =>
    obtain ⟨hopen, hclose⟩ := h c List.mem_cons_self
    have hstep : step true outside c = outside := by simp [step, outside, hopen, hclose]
    rw [after_cons, hstep]
    exact ih fun d hd => h d (List.mem_cons_of_mem _ hd)

end Nesting

open Nesting

/-! ## Whole pieces -/

/-- That no separator is met outside of everything. -/
def Whole (strict : Bool) (sep : Char) : Nesting → List Char → Prop
  | _, [] => True
  | n, c :: cs => ¬ (c = sep ∧ n.isOutside) ∧ Whole strict sep (n.step strict c) cs

theorem whole_of_not_mem {n : Nesting} {cs : List Char} (h : sep ∉ cs) :
    Whole strict sep n cs := by
  induction cs generalizing n with
  | nil => trivial
  | cons c cs ih =>
    rw [List.mem_cons, not_or] at h
    exact ⟨fun hc => h.1 hc.1.symm, ih h.2⟩

theorem whole_append {n : Nesting} {cs ds : List Char} :
    Whole strict sep n (cs ++ ds) ↔
      Whole strict sep n cs ∧ Whole strict sep (after strict n cs) ds := by
  induction cs generalizing n with
  | nil => simp [Whole]
  | cons c cs ih =>
    rw [List.cons_append, Whole, Whole, ih, after_cons, and_assoc]

/-- Inside of something no separator counts, as long as nothing is closed. -/
theorem whole_of_not_isMark {n : Nesting} {cs : List Char} (hn : n.isOutside = false)
    (h : ∀ c ∈ cs, isMark c = false) : Whole strict sep n cs := by
  induction cs with
  | nil => trivial
  | cons c cs ih =>
    refine ⟨by simp [hn], ?_⟩
    rw [step_of_not_isMark (h c List.mem_cons_self)]
    exact ih fun d hd => h d (List.mem_cons_of_mem _ hd)

theorem cutOutside_of_whole {n : Nesting} {cs : List Char} (h : Whole strict sep n cs) :
    cutOutside strict sep n cs = [cs] := by
  induction cs generalizing n with
  | nil => rfl
  | cons c cs ih =>
    obtain ⟨hc, hcs⟩ := h
    rw [cutOutside, if_neg hc, ih hcs]
    rfl

theorem prepend_append {c : Char} {ps qs : List (List Char)} (h : ps ≠ []) :
    prepend c (ps ++ qs) = prepend c ps ++ qs := by
  cases ps with
  | nil => exact absurd rfl h
  | cons p ps => rfl

theorem cutOutside_ne_nil {n : Nesting} {cs : List Char} : cutOutside strict sep n cs ≠ [] := by
  cases cs with
  | nil => simp [cutOutside]
  | cons c cs =>
    rw [cutOutside]
    split
    · simp
    · cases cutOutside strict sep (n.step strict c) cs <;> simp [prepend]

theorem mem_of_mem_cutOutside {n : Nesting} {cs piece : List Char} {c : Char}
    (h : piece ∈ cutOutside strict sep n cs) (hc : c ∈ piece) : c ∈ cs := by
  induction cs generalizing n piece with
  | nil =>
    obtain rfl := List.mem_singleton.1 h
    exact hc
  | cons d cs ih =>
    rw [cutOutside] at h
    split at h
    · rcases List.mem_cons.1 h with rfl | h
      · simp at hc
      · exact List.mem_cons_of_mem _ (ih h hc)
    · obtain ⟨first, more, hpieces⟩ := List.exists_cons_of_ne_nil
        (@cutOutside_ne_nil strict sep (n.step strict d) cs)
      rw [hpieces, prepend] at h
      rcases List.mem_cons.1 h with rfl | h
      · rcases List.mem_cons.1 hc with rfl | hc
        · exact List.mem_cons_self
        · exact List.mem_cons_of_mem _ (ih (hpieces ▸ List.mem_cons_self) hc)
      · exact List.mem_cons_of_mem _ (ih (hpieces ▸ List.mem_cons_of_mem _ h) hc)

/-- **A separator met outside cuts a text in two**, and neither side is cut
otherwise than alone. -/
theorem cutOutside_append_sep {n : Nesting} {cs ds : List Char} (hsep : isMark sep = false)
    (h : after strict n cs = outside) :
    cutOutside strict sep n (cs ++ sep :: ds) =
      cutOutside strict sep n cs ++ cutOutside strict sep outside ds := by
  induction cs generalizing n with
  | nil =>
    obtain rfl : n = outside := h
    simp [cutOutside]
  | cons c cs ih =>
    rw [after_cons] at h
    rw [List.cons_append, cutOutside, cutOutside]
    by_cases hc : c = sep ∧ n.isOutside
    · -- the separator that is met first leaves the scanner where it is
      obtain ⟨rfl, hn⟩ := hc
      rw [step_of_not_isMark hsep] at h
      rw [if_pos ⟨rfl, hn⟩, if_pos ⟨rfl, hn⟩, ih h]
      rfl
    · rw [if_neg hc, if_neg hc, ih h, prepend_append cutOutside_ne_nil]

/-- A text is whole, or its first piece ends where the scanner is outside. -/
theorem whole_or_exists_append {n : Nesting} (hsep : isMark sep = false) (cs : List Char) :
    Whole strict sep n cs ∨
      ∃ p ds, cs = p ++ sep :: ds ∧ Whole strict sep n p ∧ after strict n p = outside := by
  induction cs generalizing n with
  | nil => exact .inl trivial
  | cons c cs ih =>
    by_cases hc : c = sep ∧ n.isOutside
    · obtain ⟨rfl, hn⟩ := hc
      exact .inr ⟨[], cs, rfl, trivial, isOutside_iff.1 hn⟩
    · rcases ih (n := n.step strict c) with hwhole | ⟨p, ds, rfl, hp, hout⟩
      · exact .inl ⟨hc, hwhole⟩
      · exact .inr ⟨c :: p, ds, rfl, ⟨hc, hp⟩, hout⟩

end Text

end ApiSnippets
