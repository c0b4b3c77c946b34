import Mathlib.Data.List.Infix
import Mathlib.Data.List.TakeWhile
import ApiSnippets.Text.Cut
/-!
# The tokens of a text

What stands between separators. A token is a run without separators that a
separator or an end of the text stands on either side of (`TokenAt`), and a
text is taken apart into its tokens from left to right
(`fields_eq_append_cons_iff`).
-/

namespace ApiSnippets

namespace Text

variable {p : Char → Bool} {c : Char} {cs before token after : List Char}
  {earlier later : List (List Char)}

/-- A token of a text, with what stands in front of it and behind it. -/
structure TokenAt (p : Char → Bool) (before token after : List Char) : Prop where
  ne_nil : token ≠ []
  chars : ∀ c ∈ token, p c = false
  before : ∀ c ∈ before.getLast?, p c = true
  after : ∀ c ∈ after.head?, p c = true

/-- That a run of characters is one of the tokens of a text. -/
def IsToken (p : Char → Bool) (cs token : List Char) : Prop :=
  ∃ before after, cs = before ++ token ++ after ∧ TokenAt p before token after

/-! ## The first token -/

theorem fields_cons_separator (hc : p c = true) : fields p (c :: cs) = fields p cs := by
  cases cs <;> simp [fields, hc]

/-- A run is a token of its own when a separator follows. -/
theorem fields_run {ds : List Char} (hcs : ∀ c ∈ cs, p c = false) (hne : cs ≠ [])
    (hc : p c = true) : fields p (cs ++ c :: ds) = cs :: fields p ds := by
  induction cs with
  | nil => exact absurd rfl hne
  | cons d cs ih =>
    obtain ⟨hd, hcs⟩ := List.forall_mem_cons.1 hcs
    cases cs with
    | nil => simp [fields, hc, hd]
    | cons d' cs =>
      have hd' : p d' = false := hcs d' List.mem_cons_self
      have hrest := ih hcs (by simp)
      rw [List.cons_append] at hrest
      rw [List.cons_append, List.cons_append, fields, if_neg (by simp [hd])]
      simp only [hd', Bool.false_eq_true, if_false, hrest]

theorem fields_of_run (hcs : ∀ c ∈ cs, p c = false) (hne : cs ≠ []) : fields p cs = [cs] := by
  induction cs with
  | nil => exact absurd rfl hne
  | cons d cs ih =>
    obtain ⟨hd, hcs⟩ := List.forall_mem_cons.1 hcs
    cases cs with
    | nil => simp [fields, hd]
    | cons d' cs =>
      have hd' : p d' = false := hcs d' List.mem_cons_self
      rw [fields, if_neg (by simp [hd])]
      simp only [hd', Bool.false_eq_true, if_false, ih hcs (by simp)]

theorem fields_token (h : TokenAt p [] token after) :
    fields p (token ++ after) = token :: fields p after := by
  cases after with
  | nil => rw [List.append_nil, fields_of_run h.chars h.ne_nil, fields]
  | cons c after =>
    have hc : p c = true := h.after c rfl
    rw [fields_run h.chars h.ne_nil hc, fields_cons_separator hc]

theorem exists_token (cs : List Char) (hc : p c = false) :
    ∃ token after, c :: cs = token ++ after ∧ TokenAt p [] token after := by
  refine ⟨(c :: cs).takeWhile fun d => !p d, (c :: cs).dropWhile fun d => !p d,
    List.takeWhile_append_dropWhile.symm, by simp [hc], fun d hd => ?_, by simp, fun d hd => ?_⟩
  · simpa using List.mem_takeWhile_imp hd
  · have := List.head?_dropWhile_not (fun d => !p d) (c :: cs)
    rw [Option.mem_def.1 hd] at this
    simpa using this

/-- Texts are taken apart from the left: a separator or a token is in front. -/
@[elab_as_elim]
theorem tokenInduction (p : Char → Bool) {motive : List Char → Prop} (nil : motive [])
    (separator : ∀ c cs, p c = true → motive cs → motive (c :: cs))
    (token : ∀ token after, TokenAt p [] token after → motive after → motive (token ++ after))
    (cs : List Char) : motive cs := by
  induction hn : cs.length using Nat.strong_induction_on generalizing cs with
  | h n ih =>
    cases cs with
    | nil => exact nil
    | cons c cs =>
      cases hc : p c with
      | true => exact separator c cs hc (ih cs.length (by simp [← hn]) cs rfl)
      | false =>
        obtain ⟨run, after, hcs, hrun⟩ := exists_token cs hc
        have hlength : after.length < n := by
          have := List.length_pos_iff.2 hrun.ne_nil
          rw [← hn, hcs, List.length_append]
          omega
        rw [hcs]
        exact token run after hrun (ih after.length hlength after rfl)

/-! ## All tokens -/

/-- A separator parts the tokens of a text. -/
theorem fields_append (hc : p c = true) (cs ds : List Char) :
    fields p (cs ++ c :: ds) = fields p cs ++ fields p ds := by
  induction cs using tokenInduction p with
  | nil => exact fields_cons_separator hc
  | separator d cs hd ih =>
    rw [List.cons_append, fields_cons_separator hd, fields_cons_separator hd, ih]
  | token run after hrun ih =>
    have hlonger : TokenAt p [] run (after ++ c :: ds) :=
      ⟨hrun.ne_nil, hrun.chars, hrun.before, by
        cases after with
        | nil => simpa using hc
        | cons d after => exact hrun.after⟩
    rw [List.append_assoc, fields_token hlonger, ih, fields_token hrun, List.cons_append]

theorem fields_of_tokenAt (h : TokenAt p before token after) :
    fields p (before ++ token ++ after) = fields p before ++ token :: fields p after := by
  have hfirst : fields p (token ++ after) = token :: fields p after :=
    fields_token ⟨h.ne_nil, h.chars, by simp, h.after⟩
  rcases List.eq_nil_or_concat' before with rfl | ⟨front, c, rfl⟩
  · exact hfirst
  · have hc : p c = true := h.before c (by simp)
    calc fields p (front ++ [c] ++ token ++ after)
        = fields p (front ++ c :: (token ++ after)) := by simp
      _ = fields p front ++ token :: fields p after := by rw [fields_append hc, hfirst]
      _ = fields p (front ++ [c]) ++ token :: fields p after := by
          rw [fields_append hc, fields, List.append_nil]

theorem exists_tokenAt (cs : List Char) (h : fields p cs = earlier ++ token :: later) :
    ∃ before after, cs = before ++ token ++ after ∧ TokenAt p before token after ∧
      fields p before = earlier := by
  induction cs using tokenInduction p generalizing earlier with
  | nil => simp [fields] at h
  | separator c cs hc ih =>
    rw [fields_cons_separator hc] at h
    obtain ⟨before, after, rfl, ht, hearlier⟩ := ih h
    refine ⟨c :: before, after, rfl, ⟨ht.ne_nil, ht.chars, fun d hd => ?_, ht.after⟩,
      by rw [fields_cons_separator hc, hearlier]⟩
    cases before with
    | nil => simp at hd; exact hd ▸ hc
    | cons c' before => exact ht.before d (by simpa using hd)
  | token run rest hrun ih =>
    rw [fields_token hrun] at h
    cases earlier with
    | nil =>
      obtain ⟨rfl, -⟩ := List.cons.inj h
      exact ⟨[], rest, rfl, hrun, rfl⟩
    | cons first earlier =>
      rw [List.cons_append] at h
      obtain ⟨rfl, hrest⟩ := List.cons.inj h
      obtain ⟨before, after, rfl, ht, hearlier⟩ := ih hrest
      -- a separator ends the first run, so the token cannot follow at once
      have hbefore : before ≠ [] := by
        rintro rfl
        obtain ⟨c, token, rfl⟩ := List.exists_cons_of_ne_nil ht.ne_nil
        have hsep := hrun.after c rfl
        rw [ht.chars c List.mem_cons_self] at hsep
        cases hsep
      obtain ⟨c, before, rfl⟩ := List.exists_cons_of_ne_nil hbefore
      have hfirst : TokenAt p [] run (c :: before) :=
        ⟨hrun.ne_nil, hrun.chars, hrun.before, hrun.after⟩
      refine ⟨run ++ c :: before, after, by simp,
        ⟨ht.ne_nil, ht.chars, fun d hd => ht.before d (by simpa using hd), ht.after⟩, ?_⟩
      rw [fields_token hfirst, hearlier]

/-- **The tokens of a text**: what is in front of a token holds those before
it, and what is behind it those after it. -/
theorem fields_eq_append_cons_iff :
    fields p cs = earlier ++ token :: later ↔
      ∃ before after, cs = before ++ token ++ after ∧ TokenAt p before token after ∧
        fields p before = earlier ∧ fields p after = later := by
  constructor
  · intro h
    obtain ⟨before, after, rfl, ht, rfl⟩ := exists_tokenAt cs h
    rw [fields_of_tokenAt ht] at h
    exact ⟨before, after, rfl, ht, rfl, (List.cons.inj (List.append_cancel_left h)).2⟩
  · rintro ⟨before, after, rfl, ht, rfl, rfl⟩
    exact fields_of_tokenAt ht

theorem mem_fields_iff : token ∈ fields p cs ↔ IsToken p cs token := by
  constructor
  · intro h
    obtain ⟨earlier, later, hsplit⟩ := List.append_of_mem h
    obtain ⟨before, after, hcs, ht, -⟩ := fields_eq_append_cons_iff.1 hsplit
    exact ⟨before, after, hcs, ht⟩
  · rintro ⟨before, after, rfl, ht⟩
    rw [fields_of_tokenAt ht]
    simp

end Text

end ApiSnippets
