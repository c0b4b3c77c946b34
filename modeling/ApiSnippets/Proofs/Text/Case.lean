import Mathlib.Data.List.Basic
import ApiSnippets.Proofs.Text.Cut
import ApiSnippets.Text.Case
/-!
# Lower case, part by part

The lower case of a text is that of its parts, but for the capital sigma,
whose lower case depends on what stands around it. `Lowers` leaves that choice
open, so that a text can be taken apart: where its lower case has a character without
letter case, such as a parenthesis, the text has the same one (`Lowers.split`), because no other
character becomes one.
-/

namespace ApiSnippets

namespace Text

variable {b c d : Char} {cs ds ls ms : List Char}

/-! ## One character -/

theorem toNat_of_ofNat_eq {n : Nat} (h : Char.ofNat n = b) (hb : b.toNat ≠ 0) : b.toNat = n := by
  subst h
  by_cases hvalid : n.isValidChar
  · have hchar : Char.ofNat n = Char.ofNatAux n hvalid := dif_pos hvalid
    rw [hchar]
    rfl
  · have hchar : Char.ofNat n = Char.ofNat 0 := dif_neg hvalid
    exact absurd (congrArg Char.toNat hchar) hb

/-- Only the Kelvin sign is moved into ASCII. -/
theorem lowerRuns_beyond : ∀ r ∈ Table.lowerRuns, 128 ≤ (r.first : Int) + r.shift ∨
    r.first = 0x212A ∧ r.last = 0x212A ∧ r.shift = -8383 := by
  decide +kernel

theorem shiftCase_lowerRuns {n : Nat} (hn : ¬ n < 128)
    (h : shiftCase Table.lowerRuns n < 128) : n = 0x212A := by
  unfold shiftCase at h
  split at h
  · next r hr =>
    have hcovers : r.covers n = true := by simpa using List.find?_some hr
    simp only [CaseRun.covers, Bool.and_eq_true, decide_eq_true_eq] at hcovers
    rcases lowerRuns_beyond r (List.mem_of_find?_eq_some hr) with hrun | ⟨hfirst, hlast, -⟩
    · omega
    · omega
  · exact absurd h hn

/-- **Two characters beyond ASCII have a lower case with a character of
ASCII**: the dotted capital I and the Kelvin sign. -/
theorem lowerChar_beyond (hc : ¬ c.toNat < 128) (hd : d ∈ lowerChar c) (hascii : d.toNat < 128)
    (hzero : d.toNat ≠ 0) :
    c.toNat = 0x130 ∧ lowerChar c = ['i', Char.ofNat 0x307] ∨
      c.toNat = 0x212A ∧ lowerChar c = ['k'] := by
  unfold lowerChar at hd ⊢
  rw [if_neg hc] at hd ⊢
  split at hd
  · next ns hns =>
    rw [Table.lowerSpecial, List.lookup_cons] at hns
    split at hns
    · next hcode =>
      obtain rfl := Option.some.inj hns
      exact .inl ⟨by simpa using hcode, rfl⟩
    · simp at hns
  · have hcode := toNat_of_ofNat_eq (List.mem_singleton.1 hd).symm hzero
    have hkelvin := shiftCase_lowerRuns hc (by omega)
    exact .inr ⟨hkelvin, by rw [hkelvin]; decide +kernel⟩

/-- What holds of the characters of ASCII holds of every character below 128. -/
theorem of_ascii {P : Char → Prop} (h : ∀ n < 128, P (Char.ofNat n)) (hc : c.toNat < 128) :
    P c := by
  rw [← Char.ofNat_toNat c]
  exact h _ hc

/-- Lower case within ASCII changes letters only, and leaves them letters. -/
theorem toLower_of_ascii (hc : c.toNat < 128) :
    lowerChar c = [c.toLower] ∧ isWord c.toLower = isWord c ∧
      isAsciiLetter c.toLower = isAsciiLetter c ∧ (isAsciiLetter c = false → c.toLower = c) :=
  of_ascii (P := fun c => lowerChar c = [c.toLower] ∧ isWord c.toLower = isWord c ∧
    isAsciiLetter c.toLower = isAsciiLetter c ∧ (isAsciiLetter c = false → c.toLower = c))
    (by decide +kernel) hc

theorem lowerChar_of_ascii (hc : c.toNat < 128) : lowerChar c = [c.toLower] :=
  (toLower_of_ascii hc).1

theorem lowerChar_ne_nil (c : Char) : lowerChar c ≠ [] := by
  unfold lowerChar
  split
  · split <;> simp
  · split
    · next ns hns =>
      rw [Table.lowerSpecial, List.lookup_cons] at hns
      split at hns
      · obtain rfl := Option.some.inj hns
        simp
      · simp at hns
    · simp

/-- The lower-case forms of a character. A capital sigma has two, and what
stands around it decides. -/
def lowerForms (c : Char) : List (List Char) :=
  if c = 'Σ' then [['σ'], ['ς']] else [lowerChar c]

/-- A character of ASCII that is no letter. -/
def isCaseless (c : Char) : Bool :=
  decide (0 < c.toNat) && decide (c.toNat < 128) && !isAsciiLetter c

theorem isCaseless_iff : isCaseless c = true ↔
    (0 < c.toNat ∧ c.toNat < 128) ∧ isAsciiLetter c = false := by
  simp [isCaseless]

theorem mem_lowerForms (hds : ds ∈ lowerForms c) :
    c = 'Σ' ∧ (ds = ['σ'] ∨ ds = ['ς']) ∨ c ≠ 'Σ' ∧ ds = lowerChar c := by
  unfold lowerForms at hds
  split at hds
  · next hc => exact .inl ⟨hc, by simpa using hds⟩
  · next hc => exact .inr ⟨hc, by simpa using hds⟩

theorem lowerForms_of_ascii (hc : c.toNat < 128) : lowerForms c = [[c.toLower]] := by
  have hsigma : c ≠ 'Σ' := by
    rintro rfl
    exact absurd hc (by decide)
  rw [lowerForms, if_neg hsigma, lowerChar_of_ascii hc]

theorem ne_nil_of_mem_lowerForms (hds : ds ∈ lowerForms c) : ds ≠ [] := by
  rcases mem_lowerForms hds with ⟨-, rfl | rfl⟩ | ⟨-, rfl⟩
  · simp
  · simp
  · exact lowerChar_ne_nil c

/-- The characters of ASCII in a lower-case form come from ASCII, from the
dotted capital I or from the Kelvin sign. -/
theorem eq_lowerChar_of_ascii (hds : ds ∈ lowerForms c) (hd : d ∈ ds) (hascii : d.toNat < 128)
    (hzero : d.toNat ≠ 0) :
    ds = lowerChar c ∧ c.toNat < 128 ∨ ds = ['i', Char.ofNat 0x307] ∨
      c.toNat = 0x212A ∧ ds = ['k'] := by
  rcases mem_lowerForms hds with ⟨-, rfl | rfl⟩ | ⟨-, rfl⟩
  · obtain rfl := List.mem_singleton.1 hd
    exact absurd hascii (by decide)
  · obtain rfl := List.mem_singleton.1 hd
    exact absurd hascii (by decide)
  · by_cases hc : c.toNat < 128
    · exact .inl ⟨rfl, hc⟩
    · rcases lowerChar_beyond hc hd hascii hzero with ⟨-, h⟩ | h
      · exact .inr (.inl h)
      · exact .inr (.inr h)

theorem lowerForms_of_isCaseless (hc : isCaseless c = true) : lowerForms c = [[c]] := by
  obtain ⟨⟨-, hascii⟩, hletter⟩ := isCaseless_iff.1 hc
  obtain ⟨-, -, -, hsame⟩ := toLower_of_ascii hascii
  rw [lowerForms_of_ascii hascii, hsame hletter]

/-- **A character without letter case is the lower case of itself alone.** -/
theorem eq_of_mem_lowerForms (hds : ds ∈ lowerForms c) (hd : d ∈ ds)
    (hcaseless : isCaseless d = true) : c = d ∧ ds = [d] := by
  obtain ⟨⟨hzero, hascii⟩, hletter⟩ := isCaseless_iff.1 hcaseless
  rcases eq_lowerChar_of_ascii hds hd hascii (by omega) with ⟨rfl, hc⟩ | rfl | ⟨-, rfl⟩
  · obtain ⟨hlower, -, hletters, hsame⟩ := toLower_of_ascii hc
    rw [hlower] at hd ⊢
    obtain rfl := List.mem_singleton.1 hd
    exact ⟨(hsame (hletters ▸ hletter)).symm, rfl⟩
  · rcases List.mem_pair.1 hd with rfl | rfl <;> exact absurd hcaseless (by decide)
  · obtain rfl := List.mem_singleton.1 hd
    exact absurd hcaseless (by decide)

/-- A character whose lower case is a word of ASCII is a word character. -/
theorem isWord_of_mem_lowerForms (hds : ds ∈ lowerForms c)
    (h : ∀ d ∈ ds, isWord d = true ∧ d.toNat < 128) : isWord c = true := by
  obtain ⟨d, more, rfl⟩ := List.exists_cons_of_ne_nil (ne_nil_of_mem_lowerForms hds)
  obtain ⟨hword, hascii⟩ := h d List.mem_cons_self
  have hzero : d.toNat ≠ 0 := by
    intro hzero
    rw [← Char.ofNat_toNat d, hzero] at hword
    exact absurd hword (by decide)
  rcases eq_lowerChar_of_ascii hds List.mem_cons_self hascii hzero with ⟨hlower, hc⟩ | hi | ⟨hc, -⟩
  · obtain ⟨hchar, hsame, -⟩ := toLower_of_ascii hc
    rw [hchar] at hlower
    obtain ⟨rfl, -⟩ := List.cons.inj hlower
    rwa [hsame] at hword
  · have hdot := (h (Char.ofNat 0x307) (hi ▸ by simp)).2
    exact absurd hdot (by decide)
  · rw [← Char.ofNat_toNat c, hc]
    decide +kernel

/-! ## Texts -/

/-- A text and one of its lower-case forms. -/
inductive Lowers : List Char → List Char → Prop
  | nil : Lowers [] []
  | cons {c : Char} {ds cs ls : List Char} : ds ∈ lowerForms c → Lowers cs ls →
      Lowers (c :: cs) (ds ++ ls)

theorem lowers_lowerChars (cs : List Char) : Lowers cs (lowerChars cs) := by
  have h : ∀ afterCased, Lowers cs (lowerFrom afterCased cs) := by
    induction cs with
    | nil => exact fun _ => .nil
    | cons c cs ih =>
      intro afterCased
      rw [lowerFrom]
      refine .cons ?_ (ih _)
      by_cases hc : c = 'Σ'
      · rw [if_pos hc, lowerForms, if_pos hc]
        split <;> simp
      · simp [hc, lowerForms]
  exact h false

/-- **Without a capital sigma a text has one lower case.** -/
theorem Lowers.eq_lowerChars (h : Lowers cs ls) (hsigma : 'Σ' ∉ cs) : ls = lowerChars cs := by
  have hfrom : ∀ afterCased, ls = lowerFrom afterCased cs := by
    induction h with
    | nil => exact fun _ => rfl
    | @cons c ds cs ls hds _ ih =>
      intro afterCased
      obtain ⟨hc, hcs⟩ := not_or.1 (mt List.mem_cons.2 hsigma)
      rcases mem_lowerForms hds with ⟨rfl, -⟩ | ⟨-, rfl⟩
      · exact (hc rfl).elim
      · rw [lowerFrom, if_neg (Ne.symm hc), ← ih hcs]
  exact hfrom false

theorem lowers_nil_iff : Lowers [] ls ↔ ls = [] := by
  constructor
  · rintro ⟨⟩
    rfl
  · rintro rfl
    exact .nil

theorem lowers_cons_iff : Lowers (c :: cs) ls ↔
    ∃ ds ms, ds ∈ lowerForms c ∧ Lowers cs ms ∧ ls = ds ++ ms := by
  constructor
  · rintro (_ | ⟨hds, hms⟩)
    exact ⟨_, _, hds, hms, rfl⟩
  · rintro ⟨ds, ms, hds, hms, rfl⟩
    exact .cons hds hms

theorem lowers_caseless_cons (hc : isCaseless c = true) :
    Lowers (c :: cs) ls ↔ ∃ ms, Lowers cs ms ∧ ls = c :: ms := by
  simp [lowers_cons_iff, lowerForms_of_isCaseless hc]

theorem lowers_append_iff :
    Lowers (cs ++ ds) ls ↔ ∃ ms ns, Lowers cs ms ∧ Lowers ds ns ∧ ls = ms ++ ns := by
  induction cs generalizing ls with
  | nil =>
    constructor
    · exact fun h => ⟨[], ls, .nil, h, rfl⟩
    · rintro ⟨_, ns, ⟨⟩, hns, rfl⟩
      exact hns
  | cons c cs ih =>
    rw [List.cons_append, lowers_cons_iff]
    simp only [ih]
    constructor
    · rintro ⟨fs, _, hfs, ⟨ms, ns, hms, hns, rfl⟩, rfl⟩
      exact ⟨fs ++ ms, ns, .cons hfs hms, hns, (List.append_assoc ..).symm⟩
    · rintro ⟨_, ns, hcs, hns, rfl⟩
      obtain ⟨fs, ms, hfs, hms, rfl⟩ := lowers_cons_iff.1 hcs
      exact ⟨fs, ms ++ ns, hfs, ⟨ms, ns, hms, hns, rfl⟩, List.append_assoc ..⟩

theorem Lowers.eq_nil (h : Lowers cs []) : cs = [] := by
  cases cs with
  | nil => rfl
  | cons c cs =>
    obtain ⟨ds, ms, hds, -, hnil⟩ := lowers_cons_iff.1 h
    exact absurd (List.append_eq_nil_iff.1 hnil.symm).1 (ne_nil_of_mem_lowerForms hds)

/-- **A text is cut where its lower case is cut**, at a character without
letter case. -/
theorem Lowers.split (hc : isCaseless c = true) (h : Lowers cs (ls ++ c :: ms)) :
    ∃ xs ys, cs = xs ++ c :: ys ∧ Lowers xs ls ∧ Lowers ys ms := by
  generalize hlower : ls ++ c :: ms = lower at h
  induction h generalizing ls with
  | nil => simp at hlower
  | @cons d ds cs lower' hds hcs ih =>
    rcases List.append_eq_append_iff.1 hlower with ⟨bs, rfl, hbs⟩ | ⟨bs, rfl, hbs⟩
    · cases bs with
      | nil =>
        rw [List.append_nil] at hds
        obtain ⟨xs, ys, rfl, hxs, hys⟩ := @ih [] hbs
        obtain rfl := hxs.eq_nil
        exact ⟨[d], ys, rfl, by simpa using Lowers.cons hds .nil, hys⟩
      | cons b bs =>
        -- this character has the one that is cut at in its lower case, and so is it
        obtain ⟨rfl, rfl⟩ := List.cons.inj hbs
        obtain ⟨rfl, hls⟩ := eq_of_mem_lowerForms hds (by simp) hc
        obtain ⟨rfl, rfl⟩ : ls = [] ∧ bs = [] := by
          cases ls <;> simp_all
        exact ⟨[], cs, rfl, .nil, by simpa using hcs⟩
    · obtain ⟨xs, ys, rfl, hxs, hys⟩ := ih hbs.symm
      exact ⟨d :: xs, ys, rfl, .cons hds hxs, hys⟩

theorem Lowers.split_cons (hc : isCaseless c = true) (h : Lowers cs (c :: ms)) :
    ∃ ys, cs = c :: ys ∧ Lowers ys ms := by
  obtain ⟨xs, ys, rfl, hxs, hys⟩ := @Lowers.split c cs [] ms hc h
  obtain rfl := hxs.eq_nil
  exact ⟨ys, rfl, hys⟩

/-- A character without letter case is in the lower case when it is in the
text. -/
theorem Lowers.mem_iff (hc : isCaseless c = true) (h : Lowers cs ls) : c ∈ ls ↔ c ∈ cs := by
  induction h with
  | nil => simp
  | @cons d ds cs ls hds _ ih =>
    have hd : c ∈ ds ↔ c = d := by
      constructor
      · exact fun hmem => (eq_of_mem_lowerForms hds hmem hc).1.symm
      · rintro rfl
        rw [lowerForms_of_isCaseless hc, List.mem_singleton] at hds
        simp [hds]
    rw [List.mem_append, List.mem_cons, hd, ih]

/-- **What stands behind the last separator** has what stands behind the last
separator of the lower case as its lower case. -/
theorem Lowers.afterLast (hc : isCaseless c = true) (h : Lowers cs ls) :
    Lowers (afterLast c cs) (afterLast c ls) := by
  by_cases hmem : c ∈ cs
  · obtain ⟨xs, ys, rfl, hys⟩ := exists_afterLast hmem
    obtain ⟨ms, ns, -, hns, rfl⟩ := lowers_append_iff.1 h
    obtain ⟨ns, hlower, rfl⟩ := (lowers_caseless_cons hc).1 hns
    rw [afterLast_append hys, afterLast_append (mt (hlower.mem_iff hc).1 hys)]
    exact hlower
  · rw [afterLast_of_not_mem hmem, afterLast_of_not_mem (mt (h.mem_iff hc).1 hmem)]
    exact h

end Text

end ApiSnippets
