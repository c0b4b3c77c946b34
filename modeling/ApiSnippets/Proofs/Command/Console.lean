import ApiSnippets.Command.Console
import ApiSnippets.Proofs.Number.Text
import ApiSnippets.Proofs.Text.Cut
/-!
# What a console takes

A console that is not broken takes every remark that its terminal shows
(`Console.broken_remark`), and all of them when colours are off. A remark
changes neither the style of a console nor its terminal, so what it takes later
is what it takes now. The terminal that goes by the rules for tags shows every
text without brackets between two tags of one style
(`Markup.untagged_between`).
-/

namespace ApiSnippets

namespace Console

/-! ## Remarks -/

/-- A terminal shows a text with tags; there is no terminal to refuse it when
colours are off. -/
def Shows (c : Console) (tagged : String) : Prop :=
  ∀ markup, c.markup = some markup → (markup tagged).isSome = true

/-- Consoles that take the same remarks. -/
structure Alike (c c' : Console) : Prop where
  style : c.style = c'.style
  markup : c.markup = c'.markup
  broken : c.broken = c'.broken

variable {c c' : Console} {tagged plain text : String}

theorem Alike.refl (c : Console) : c.Alike c :=
  ⟨rfl, rfl, rfl⟩

theorem Alike.trans {c'' : Console} (h : c.Alike c') (h' : c'.Alike c'') : c.Alike c'' :=
  ⟨h.style.trans h'.style, h.markup.trans h'.markup, h.broken.trans h'.broken⟩

theorem Alike.shows (h : c.Alike c') : c.Shows tagged ↔ c'.Shows tagged := by
  rw [Shows, Shows, h.markup]

/-- **A remark is taken when the terminal shows it.** -/
theorem broken_remark :
    (c.remark tagged plain).broken = false ↔ c.broken = false ∧ c.Shows tagged := by
  unfold remark
  cases hbroken : c.broken with
  | true => simp [hbroken]
  | false =>
    cases hmarkup : c.markup with
    | none => simp [Shows, line, hmarkup, hbroken]
    | some markup => cases h : markup tagged <;> simp [Shows, line, hmarkup, hbroken, h]

/-- A remark that is taken leaves the console as it was for the next one. -/
theorem alike_remark (h : (c.remark tagged plain).broken = false) :
    (c.remark tagged plain).Alike c := by
  obtain ⟨hbroken, hshows⟩ := broken_remark.1 h
  have hline : ∃ shown, c.remark tagged plain = c.line shown := by
    rw [remark, hbroken, if_neg Bool.false_ne_true]
    cases hmarkup : c.markup with
    | none => exact ⟨plain, rfl⟩
    | some markup =>
      obtain ⟨shown, hshown⟩ := Option.isSome_iff_exists.1 (hshows markup hmarkup)
      exact ⟨shown, by simp only [hshown]⟩
  obtain ⟨shown, hline⟩ := hline
  rw [hline]
  exact ⟨rfl, rfl, rfl⟩

theorem broken_error : (c.error text).broken = false ↔
    c.broken = false ∧ c.Shows ("[bold red]Error:[/bold red] " ++ text) :=
  broken_remark

theorem broken_success : (c.success text).broken = false ↔
    c.broken = false ∧ (c.style.quiet = false → c.Shows ("[green]" ++ text ++ "[/green]")) := by
  unfold success
  split
  · next hquiet => simp [hquiet]
  · next hquiet => simp [hquiet, broken_remark]

theorem broken_info : (c.info text).broken = false ↔
    c.broken = false ∧ (c.style.quiet = false → c.Shows text) := by
  unfold info
  split
  · next hquiet => simp [hquiet]
  · next hquiet => simp [hquiet, broken_remark]

theorem Alike.broken_error (h : c.Alike c') :
    (c.error text).broken = false ↔ (c'.error text).broken = false := by
  rw [Console.broken_error, Console.broken_error, h.broken, h.shows]

theorem Alike.broken_success (h : c.Alike c') :
    (c.success text).broken = false ↔ (c'.success text).broken = false := by
  rw [Console.broken_success, Console.broken_success, h.broken, h.style, h.shows]

theorem Alike.broken_info (h : c.Alike c') :
    (c.info text).broken = false ↔ (c'.info text).broken = false := by
  rw [Console.broken_info, Console.broken_info, h.broken, h.style, h.shows]

theorem alike_success (h : (c.success text).broken = false) : (c.success text).Alike c := by
  unfold success at h ⊢
  split at h
  · next hquiet =>
    rw [if_pos hquiet]
    exact .refl c
  · next hquiet =>
    rw [if_neg hquiet]
    exact alike_remark h

/-! ## Without colours -/

/-- A console without colours on which everything could be written. -/
structure IsPlain (c : Console) : Prop where
  markup : c.markup = none
  broken : c.broken = false

namespace IsPlain

variable (h : c.IsPlain)
include h

theorem remark : (c.remark tagged plain).IsPlain := by
  rw [Console.remark, h.broken, if_neg Bool.false_ne_true, h.markup]
  exact ⟨h.markup, h.broken⟩

theorem info : (c.info text).IsPlain := by
  unfold Console.info
  split
  · exact h
  · exact h.remark

theorem success : (c.success text).IsPlain := by
  unfold Console.success
  split
  · exact h
  · exact h.remark

theorem debug : (c.debug text).IsPlain := by
  unfold Console.debug
  split
  · exact h.remark
  · exact h

end IsPlain

end Console

/-! ## Texts between tags -/

namespace Markup

variable {c : Char} {cs name rest : List Char} {begun : List (List Char)} {fuel : Nat}

/-- Characters that belong to no tag are shown. -/
theorem shownFrom_append (hopen : '[' ∉ cs) (hslash : '\\' ∉ cs) :
    shownFrom (cs.length + fuel) begun (cs ++ rest) =
      (shownFrom fuel begun rest).map (cs ++ ·) := by
  induction cs with
  | nil => simp
  | cons c cs ih =>
    simp only [List.mem_cons, not_or] at hopen hslash
    have hc : (c == '\\') = false := by simpa using Ne.symm hslash.1
    rw [List.length_cons, Nat.add_right_comm, List.cons_append, shownFrom.eq_def]
    simp only [List.dropWhile_cons, hc, Bool.false_eq_true, if_false]
    split
    · next h => exact absurd (List.cons.inj h).1.symm hopen.1
    · rw [ih hopen.2 hslash.2, Option.map_map]
      rfl

/-- **A text without brackets is shown as it is.** -/
theorem untagged_of_no_tag {text : String} (hopen : '[' ∉ text.toList)
    (hslash : '\\' ∉ text.toList) : untagged text = some text := by
  have hshown : shownFrom (text.toList.length + 0) [] (text.toList ++ []) =
      (shownFrom 0 [] []).map (text.toList ++ ·) := shownFrom_append hopen hslash
  rw [Nat.add_zero, List.append_nil] at hshown
  rw [untagged, hshown]
  simp [shownFrom]

/-- A tag begins a style or ends one. -/
theorem shownFrom_tag (hstart : isTagStart c = true) (hopen : '[' ∉ name) (hclose : ']' ∉ name) :
    shownFrom (fuel + 1) begun ('[' :: c :: name ++ ']' :: rest) =
      (after? (c :: name) begun).bind fun begun => shownFrom fuel begun rest := by
  have htag : tag? (c :: name ++ ']' :: rest) = some (c :: name, rest) := by
    rw [List.cons_append, tag?, Text.cutAt_append hclose]
    simp [hstart, hopen]
  rw [List.cons_append, shownFrom]
  simp only [List.takeWhile_cons, List.dropWhile_cons, show ('[' == '\\') = false from rfl,
    Bool.false_eq_true, if_false, htag]
  cases after? (c :: name) begun with
  | none => rfl
  | some begun => simp

/-- **A text without brackets is shown between two tags of one style.** -/
theorem untagged_between {text : String} (hopen : '[' ∉ text.toList) (hslash : '\\' ∉ text.toList) :
    untagged ("[green]" ++ text ++ "[/green]") = some text := by
  have hlist : ("[green]" ++ text ++ "[/green]").toList = '[' :: 'g' :: "reen".toList ++
      ']' :: (text.toList ++ '[' :: '/' :: "green".toList ++ [']']) := by
    simp
  have hfuel : ("[green]" ++ text ++ "[/green]").toList.length = text.toList.length + 14 + 1 := by
    simp
  rw [untagged, hfuel, hlist, shownFrom_tag rfl (by decide) (by decide)]
  show Option.map _ (shownFrom _ ["green".toList] _) = _
  rw [List.append_assoc, shownFrom_append hopen hslash, List.cons_append, List.cons_append]
  show Option.map _ (Option.map _
    (shownFrom (13 + 1) _ ('[' :: '/' :: "green".toList ++ ']' :: []))) = _
  rw [shownFrom_tag rfl (by decide) (by decide)]
  have hend : (after? ('/' :: "green".toList) ["green".toList]).bind
      (fun begun => shownFrom 13 begun []) = some [] := by decide
  rw [hend]
  simp

end Markup

end ApiSnippets
