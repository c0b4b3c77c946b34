import Mathlib.Data.List.Infix
import Mathlib.Data.List.Induction
import ApiSnippets.Proofs.Text.Nesting
/-!
# What outside of parentheses and quotes means

A place in a text is inside of quotes when an odd number of quotes is before
it, and inside of parentheses when one of them that is not closed is before it,
those between quotes not counted. The scanner knows just that
(`after_eq_outside_iff`), and it cuts a text in the one way in which it can be
cut at the separators outside of both (`isCut_iff`).
-/

namespace ApiSnippets

namespace Text

variable {sep c : Char} {cs ds piece : List Char} {pieces ps qs : List (List Char)}
  {quoted : Bool}

/-! ## Places in a text -/

/-- Behind these characters a quote is open. -/
def InQuotes (cs : List Char) : Prop :=
  cs.count '\'' % 2 = 1

instance (cs : List Char) : Decidable (InQuotes cs) :=
  inferInstanceAs (Decidable (_ = _))

/-- The characters outside of quotes, where a quote may be open before them. -/
def unquotedFrom : Bool → List Char → List Char
  | _, [] => []
  | quoted, c :: cs =>
    if c = '\'' then unquotedFrom (!quoted) cs
    else if quoted then unquotedFrom quoted cs
    else c :: unquotedFrom quoted cs

/-- The characters outside of quotes. -/
def unquoted (cs : List Char) : List Char :=
  unquotedFrom false cs

/-- Behind these characters a parenthesis is open: from some place on, more of
them are opened than closed. -/
def InParentheses (cs : List Char) : Prop :=
  ∃ es, es <:+ unquoted cs ∧ es.count ')' < es.count '('

/-- What is behind these characters is outside of parentheses and quotes. -/
def Outside (cs : List Char) : Prop :=
  ¬ InQuotes cs ∧ ¬ InParentheses cs

/-! ## The scanner -/

theorem inQuotes_cons_quote : InQuotes ('\'' :: cs) ↔ ¬ InQuotes cs := by
  simp only [InQuotes, List.count_cons_self]
  omega

theorem inQuotes_cons_of_ne (hc : c ≠ '\'') : InQuotes (c :: cs) ↔ InQuotes cs := by
  simp [InQuotes, hc]

theorem quoted_after (n : Nesting) (cs : List Char) :
    (Nesting.after false n cs).quoted = (n.quoted ^^ decide (InQuotes cs)) := by
  induction cs generalizing n with
  | nil => simp [InQuotes]
  | cons c cs ih =>
    rw [Nesting.after_cons, ih]
    by_cases hc : c = '\''
    · subst hc
      simp [Nesting.step, inQuotes_cons_quote]
    · have hquoted : (n.step false c).quoted = n.quoted := by
        unfold Nesting.step
        split_ifs <;> first | rfl | simp_all
      simp [hquoted, inQuotes_cons_of_ne hc]

/-- How deep the scanner is: so deep that from some place on, or from before the
text with the depth it had there, so many more parentheses are opened than
closed. -/
theorem le_depth_after (n : Nesting) (cs : List Char) (k : Nat) :
    k ≤ (Nesting.after false n cs).depth ↔
      (∃ es, es <:+ unquotedFrom n.quoted cs ∧ es.count ')' + k ≤ es.count '(') ∨
        (unquotedFrom n.quoted cs).count ')' + k ≤
          (unquotedFrom n.quoted cs).count '(' + n.depth := by
  induction cs generalizing n with
  | nil =>
    have hzero : k = 0 → k ≤ n.depth := by omega
    simpa [unquotedFrom] using hzero
  | cons c cs ih =>
    obtain ⟨depth, quoted⟩ := n
    rw [Nesting.after_cons, ih]
    by_cases hquote : c = '\''
    · simp [Nesting.step, unquotedFrom, hquote]
    cases quoted with
    | true => simp [Nesting.step, unquotedFrom, hquote]
    | false =>
      have hunquoted : unquotedFrom false (c :: cs) = c :: unquotedFrom false cs := by
        simp [unquotedFrom, hquote]
      simp only [hunquoted, List.suffix_cons_iff, or_and_right, exists_or, exists_eq_left]
      generalize hrest : unquotedFrom false cs = rest
      -- where the text itself closes too little, it is a place to count from
      have hself : rest.count ')' + k ≤ rest.count '(' →
          ∃ es, es <:+ rest ∧ es.count ')' + k ≤ es.count '(' :=
        fun h => ⟨rest, List.suffix_refl rest, h⟩
      by_cases hopen : c = '('
      · subst hopen
        have hstep : Nesting.step false ⟨depth, false⟩ '(' = ⟨depth + 1, false⟩ := rfl
        rw [hstep, hrest, List.count_cons_self, List.count_cons_of_ne (by decide)]
        dsimp only
        constructor
        · rintro (h | h)
          · exact .inl (.inr h)
          · exact .inr (by omega)
        · rintro ((h | h) | h)
          · exact .inr (by omega)
          · exact .inl h
          · exact .inr (by omega)
      by_cases hclose : c = ')'
      · subst hclose
        have hstep : Nesting.step false ⟨depth, false⟩ ')' = ⟨depth - 1, false⟩ := rfl
        rw [hstep, hrest, List.count_cons_self, List.count_cons_of_ne (by decide)]
        dsimp only
        constructor
        · rintro (h | h)
          · exact .inl (.inr h)
          · rcases Nat.eq_zero_or_pos depth with rfl | hdepth
            · exact .inl (.inr (hself (by omega)))
            · exact .inr (by omega)
        · rintro ((h | h) | h)
          · exact .inl (hself (by omega))
          · exact .inl h
          · exact .inr (by omega)
      · have hstep : Nesting.step false ⟨depth, false⟩ c = ⟨depth, false⟩ := by
          simp [Nesting.step, hquote, hopen, hclose]
        rw [hstep, hrest, List.count_cons_of_ne hopen, List.count_cons_of_ne hclose]
        constructor
        · rintro (h | h)
          · exact .inl (.inr h)
          · exact .inr h
        · rintro ((h | h) | h)
          · exact .inl (hself h)
          · exact .inl h
          · exact .inr h

/-- **The scanner is outside** exactly at the places outside of parentheses and
quotes. -/
theorem after_eq_outside_iff (cs : List Char) :
    Nesting.after false .outside cs = .outside ↔ Outside cs := by
  have hquoted := quoted_after .outside cs
  have hdepth := le_depth_after .outside cs 1
  generalize Nesting.after false .outside cs = n at hquoted hdepth
  obtain ⟨depth, quoted⟩ := n
  have hparentheses : depth = 0 ↔ ¬ InParentheses cs := by
    have hopen : 1 ≤ depth ↔ InParentheses cs := by
      refine hdepth.trans ⟨?_, .inl⟩
      rintro (h | h)
      · exact h
      · exact ⟨_, List.suffix_refl _, h⟩
    rw [← hopen]
    omega
  have hquotes : quoted = decide (InQuotes cs) := by simpa [Nesting.outside] using hquoted
  rw [Outside, ← hparentheses, Nesting.outside, Nesting.mk.injEq, hquotes, decide_eq_false_iff_not]
  exact and_comm

/-! ## Cuts -/

theorem join_cons (p : List Char) (h : ps ≠ []) :
    join [sep] (p :: ps) = p ++ sep :: join [sep] ps := by
  cases ps with
  | nil => exact absurd rfl h
  | cons q ps => simp [join]

/-- **A text cut at the separators at some places**: joined again the pieces are
the text, and a separator is between two of them exactly where it is at one of
these places. -/
structure IsCut (place : List Char → Prop) (sep : Char) (cs : List Char)
    (pieces : List (List Char)) : Prop where
  ne_nil : pieces ≠ []
  joined : join [sep] pieces = cs
  cuts : ∀ before after, cs = before ++ sep :: after →
    (place before ↔
      ∃ ps qs, pieces = ps ++ qs ∧ ps ≠ [] ∧ qs ≠ [] ∧ join [sep] ps = before)

/-! ### There is one cut -/

namespace IsCut

variable {place : List Char → Prop} {p q : List Char}

theorem prefix_first (h : IsCut place sep cs (p :: ps)) : p <+: cs := by
  rw [← h.joined]
  cases ps with
  | nil => exact List.prefix_refl p
  | cons r ps =>
    rw [join_cons p (List.cons_ne_nil r ps)]
    exact List.prefix_append _ _

theorem length_first_le (h : IsCut place sep cs (p :: ps)) (h' : IsCut place sep cs (q :: qs)) :
    p.length ≤ q.length := by
  by_cases hqs : qs = []
  · subst hqs
    obtain rfl : q = cs := h'.joined
    exact h.prefix_first.length_le
  · -- the first cut of the one is a cut of the other
    have hcs : cs = q ++ sep :: join [sep] qs := by rw [← h'.joined, join_cons q hqs]
    have hplace : place q := (h'.cuts q _ hcs).2 ⟨[q], qs, rfl, by simp, hqs, rfl⟩
    obtain ⟨ps', qs', hpieces, hps', -, hjoin⟩ := (h.cuts q _ hcs).1 hplace
    obtain ⟨p', more, rfl⟩ := List.exists_cons_of_ne_nil hps'
    obtain ⟨rfl, -⟩ := List.cons.inj hpieces
    rw [← hjoin]
    cases more with
    | nil => exact le_refl _
    | cons r more =>
      rw [join_cons p (List.cons_ne_nil r more), List.length_append]
      omega

theorem first_eq (h : IsCut place sep cs (p :: ps)) (h' : IsCut place sep cs (q :: qs)) : p = q :=
  have hlength : p.length = q.length := le_antisymm (h.length_first_le h') (h'.length_first_le h)
  (List.prefix_of_prefix_length_le h.prefix_first h'.prefix_first hlength.le).eq_of_length hlength

/-- What is behind the first piece is cut like the text. -/
theorem tail (h : IsCut place sep cs (p :: ps)) (hne : ps ≠ []) :
    IsCut (fun before => place (p ++ sep :: before)) sep (join [sep] ps) ps where
  ne_nil := hne
  joined := rfl
  cuts := by
    intro before after hrest
    have hcs : cs = p ++ sep :: before ++ sep :: after := by
      rw [← h.joined, join_cons p hne, hrest, List.append_assoc, List.cons_append]
    rw [h.cuts _ _ hcs]
    constructor
    · rintro ⟨ps', qs', hpieces, hps', hqs', hjoin⟩
      obtain ⟨p', more, rfl⟩ := List.exists_cons_of_ne_nil hps'
      obtain ⟨rfl, rfl⟩ := List.cons.inj hpieces
      have hmore : more ≠ [] := by
        rintro rfl
        have hlength := congrArg List.length hjoin
        simp [join] at hlength
      rw [join_cons p hmore] at hjoin
      exact ⟨more, qs', rfl, hmore, hqs', (List.cons.inj (List.append_cancel_left hjoin)).2⟩
    · rintro ⟨ps', qs', rfl, hps', hqs', rfl⟩
      exact ⟨p :: ps', qs', rfl, List.cons_ne_nil _ _, hqs', join_cons p hps'⟩

theorem unique (h : IsCut place sep cs ps) (h' : IsCut place sep cs qs) : ps = qs := by
  induction ps generalizing place cs qs with
  | nil => exact absurd rfl h.ne_nil
  | cons p ps ih =>
    obtain ⟨q, qs, rfl⟩ := List.exists_cons_of_ne_nil h'.ne_nil
    obtain rfl := h.first_eq h'
    have hjoins : join [sep] (p :: ps) = join [sep] (p :: qs) := h.joined.trans h'.joined.symm
    by_cases hps : ps = [] <;> by_cases hqs : qs = []
    · rw [hps, hqs]
    · rw [hps, join_cons p hqs] at hjoins
      simp [join] at hjoins
    · rw [hqs, join_cons p hps] at hjoins
      simp [join] at hjoins
    · rw [join_cons p hps, join_cons p hqs] at hjoins
      have hrest := (List.cons.inj (List.append_cancel_left hjoins)).2
      rw [ih (h.tail hps) (hrest ▸ h'.tail hqs)]

end IsCut

/-! ### The scanner finds it -/

theorem join_cutOutside {strict : Bool} (n : Nesting) (cs : List Char) :
    join [sep] (cutOutside strict sep n cs) = cs := by
  induction cs generalizing n with
  | nil => rfl
  | cons c cs ih =>
    rw [cutOutside]
    split
    · next hc => rw [join_cons [] cutOutside_ne_nil, ih, hc.1, List.nil_append]
    · have hrest := ih (n.step strict c)
      obtain ⟨first, more, hpieces⟩ := List.exists_cons_of_ne_nil
        (@cutOutside_ne_nil strict sep (n.step strict c) cs)
      rw [hpieces] at hrest ⊢
      rw [← hrest]
      cases more <;> simp [prepend, join]

/-- Between two pieces the scanner is outside. -/
theorem after_of_cutOutside {strict : Bool} {n : Nesting} (hsep : Nesting.isMark sep = false)
    (h : cutOutside strict sep n cs = ps ++ qs) (hps : ps ≠ []) (hqs : qs ≠ []) :
    Nesting.after strict n (join [sep] ps) = .outside := by
  induction cs generalizing n ps with
  | nil =>
    obtain ⟨p, ps, rfl⟩ := List.exists_cons_of_ne_nil hps
    obtain ⟨-, hnil⟩ := List.cons.inj h
    exact absurd (List.append_eq_nil_iff.1 hnil.symm).2 hqs
  | cons c cs ih =>
    obtain ⟨p, ps, rfl⟩ := List.exists_cons_of_ne_nil hps
    rw [cutOutside] at h
    split at h
    · next hc =>
      obtain ⟨rfl, hrest⟩ := List.cons.inj h
      by_cases hne : ps = []
      · subst hne
        exact Nesting.isOutside_iff.1 hc.2
      · rw [join_cons [] hne, List.nil_append, Nesting.after_cons, Nesting.step_of_not_isMark hsep]
        exact ih hrest hne
    · obtain ⟨first, more, hpieces⟩ := List.exists_cons_of_ne_nil
        (@cutOutside_ne_nil strict sep (n.step strict c) cs)
      rw [hpieces] at h
      obtain ⟨rfl, rfl⟩ := List.cons.inj h
      have hout := ih hpieces (List.cons_ne_nil _ _)
      cases ps <;> exact hout

/-- The scanner cuts at the places that it finds to be outside. -/
theorem isCut_of_after {strict : Bool} {place : List Char → Prop}
    (hsep : Nesting.isMark sep = false)
    (hplace : ∀ before, place before ↔ Nesting.after strict .outside before = .outside)
    (cs : List Char) : IsCut place sep cs (cutOutside strict sep .outside cs) where
  ne_nil := cutOutside_ne_nil
  joined := join_cutOutside _ _
  cuts := by
    intro before after hcs
    rw [hplace]
    constructor
    · intro hout
      subst hcs
      exact ⟨_, _, cutOutside_append_sep hsep hout, cutOutside_ne_nil, cutOutside_ne_nil,
        join_cutOutside _ _⟩
    · rintro ⟨ps, qs, hpieces, hps, hqs, rfl⟩
      exact after_of_cutOutside hsep hpieces hps hqs

theorem isCut_cutOutside (hsep : Nesting.isMark sep = false) (cs : List Char) :
    IsCut Outside sep cs (cutOutside false sep .outside cs) :=
  isCut_of_after hsep (fun before => (after_eq_outside_iff before).symm) cs

/-- **A text is cut in one way** at the separators outside of parentheses and
quotes, and the scanner cuts it in this way. -/
theorem isCut_iff (hsep : Nesting.isMark sep = false) :
    IsCut Outside sep cs pieces ↔ pieces = cutOutside false sep .outside cs := by
  constructor
  · intro h
    exact h.unique (isCut_cutOutside hsep cs)
  · rintro rfl
    exact isCut_cutOutside hsep cs

end Text

end ApiSnippets
