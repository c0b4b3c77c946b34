import Mathlib.Data.List.DropRight
import Mathlib.Data.List.Infix
import Mathlib.Data.List.TakeWhile
import ApiSnippets.Text.Cut
/-!
# What cutting leaves

A run of a class in front of anything else is taken whole, pieces that are
joined are found again, a text that is trimmed has no end to lose, a text that
holds nothing to replace stays, and a character written twice is read once.
-/

namespace ApiSnippets

namespace Text

variable {p : Char → Bool} {c : Char} {cs ds : List Char}

/-- What is decided of each character of a text holds of all of them. -/
theorem forall_of_all {P : Char → Prop} [DecidablePred P]
    (h : (cs.all fun c => decide (P c)) = true) : ∀ c ∈ cs, P c :=
  fun c hc => of_decide_eq_true (List.all_eq_true.1 h c hc)

/-! ## Runs -/

theorem takeWhile_run (hcs : ∀ d ∈ cs, p d = true) (hc : p c = false) :
    (cs ++ c :: ds).takeWhile p = cs := by
  rw [List.takeWhile_append_of_pos hcs, List.takeWhile_cons, if_neg (by simp [hc]),
    List.append_nil]

theorem dropWhile_run (hcs : ∀ d ∈ cs, p d = true) (hc : p c = false) :
    (cs ++ c :: ds).dropWhile p = c :: ds := by
  rw [List.dropWhile_append_of_pos hcs, List.dropWhile_cons, if_neg (by simp [hc])]

/-- Nothing is taken from behind a character that ends a run. -/
theorem takeWhile_append_stop (hc : p c = false) :
    (cs ++ c :: ds).takeWhile p = cs.takeWhile p := by
  rw [List.takeWhile_append]
  split
  · next hall =>
    rw [List.takeWhile_cons_of_neg (by simp [hc]), List.append_nil]
    exact ((List.takeWhile_prefix p).eq_of_length hall).symm
  · rfl

theorem dropWhile_append_stop (hc : p c = false) :
    (cs ++ c :: ds).dropWhile p = cs.dropWhile p ++ c :: ds := by
  rw [List.dropWhile_append]
  split
  · next hempty => rw [List.dropWhile_cons_of_neg (by simp [hc]), List.isEmpty_iff.1 hempty]; rfl
  · rfl

theorem takeWhile_ne_of_not_mem (h : c ∉ cs) : cs.takeWhile (· != c) = cs :=
  List.takeWhile_eq_self_iff.2 fun _ hd => bne_iff_ne.2 fun hdc => h (hdc ▸ hd)

theorem dropWhile_ne_of_not_mem (h : c ∉ cs) : cs.dropWhile (· != c) = [] :=
  List.dropWhile_eq_nil_iff.2 fun _ hd => bne_iff_ne.2 fun hdc => h (hdc ▸ hd)

/-- A text is cut at the first separator. -/
theorem cutAt_append (h : c ∉ cs) : cutAt c (cs ++ c :: ds) = (cs, some ds) := by
  have hcs : ∀ d ∈ cs, (d != c) = true := fun d hd => bne_iff_ne.2 fun hdc => h (hdc ▸ hd)
  have hc : (c != c) = false := bne_self_eq_false c
  rw [cutAt, dropWhile_run hcs hc, takeWhile_run hcs hc]

/-- What stands behind the last separator. -/
theorem afterLast_append (h : c ∉ ds) : afterLast c (cs ++ c :: ds) = ds := by
  have hds : ∀ d ∈ ds.reverse, (d != c) = true := fun d hd =>
    bne_iff_ne.2 fun hdc => h (hdc ▸ List.mem_reverse.1 hd)
  have hc : (c != c) = false := bne_self_eq_false c
  rw [afterLast, List.reverse_append, List.reverse_cons, List.append_assoc, List.singleton_append,
    takeWhile_run hds hc, List.reverse_reverse]

theorem afterLast_of_not_mem (h : c ∉ cs) : afterLast c cs = cs := by
  rw [afterLast, takeWhile_ne_of_not_mem (mt List.mem_reverse.1 h), List.reverse_reverse]

/-- A name without a dot is its own last component. -/
theorem lastComponent_of_undotted {name : String} (h : '.' ∉ name.toList) :
    lastComponent name = name := by
  rw [lastComponent, afterLast_of_not_mem h, String.ofList_toList]

theorem exists_afterLast (h : c ∈ cs) : ∃ ds es, cs = ds ++ c :: es ∧ c ∉ es := by
  obtain ⟨es, ds, hcs, hes⟩ := List.eq_append_cons_of_mem (List.mem_reverse.2 h)
  refine ⟨ds.reverse, es.reverse, ?_, mt List.mem_reverse.1 hes⟩
  rw [← List.reverse_reverse cs, hcs]
  simp

/-! ## Pieces -/

theorem splitAll_of_not_mem {c : Char} {cs : List Char} (h : c ∉ cs) :
    splitAll c cs = [cs] := by
  induction cs with
  | nil => rfl
  | cons d cs ih =>
    obtain ⟨hd, hcs⟩ := not_or.1 (mt List.mem_cons.2 h)
    rw [splitAll, if_neg (Ne.symm hd), ih hcs]

theorem splitAll_ne_nil (c : Char) (cs : List Char) : splitAll c cs ≠ [] := by
  cases cs with
  | nil => simp [splitAll]
  | cons d cs =>
    rw [splitAll]
    split
    · simp
    · split <;> simp

theorem splitAll_append {c : Char} (cs ds : List Char) :
    splitAll c (cs ++ c :: ds) = splitAll c cs ++ splitAll c ds := by
  induction cs with
  | nil => simp [splitAll]
  | cons d cs ih =>
    rw [List.cons_append, splitAll, splitAll, ih]
    split
    · rfl
    · cases h : splitAll c cs with
      | nil => exact (splitAll_ne_nil c cs h).elim
      | cons piece more => rfl

theorem eq_of_splitAll {c : Char} {cs piece : List Char} (h : splitAll c cs = [piece]) :
    cs = piece := by
  by_cases hc : c ∈ cs
  · obtain ⟨ds, es, rfl⟩ := List.append_of_mem hc
    obtain ⟨first, more, hfirst⟩ := List.exists_cons_of_ne_nil (splitAll_ne_nil c ds)
    rw [splitAll_append, hfirst] at h
    simp [splitAll_ne_nil] at h
  · rw [splitAll_of_not_mem hc] at h
    exact List.singleton_inj.1 h

theorem splitAll_intercalate {c : Char} {cs : List Char} (h : c ∉ cs) (names : List (List Char)) :
    ∃ more, splitAll c (List.intercalate [c] (names ++ [cs])) = more ++ [cs] := by
  induction names with
  | nil => exact ⟨[], by simp [splitAll_of_not_mem h]⟩
  | cons first names ih =>
    obtain ⟨more, hmore⟩ := ih
    obtain ⟨next, rest, hrest⟩ := List.exists_cons_of_ne_nil (List.concat_ne_nil cs names)
    have hjoin : List.intercalate [c] (first :: names ++ [cs]) =
        first ++ c :: List.intercalate [c] (names ++ [cs]) := by
      simp [hrest, List.intercalate]
    exact ⟨splitAll c first ++ more, by rw [hjoin, splitAll_append, hmore, List.append_assoc]⟩

theorem not_mem_of_mem_splitAll {c : Char} {piece : List Char} (cs : List Char)
    (h : piece ∈ splitAll c cs) : c ∉ piece := by
  induction cs generalizing piece with
  | nil =>
    obtain rfl : piece = [] := by simpa [splitAll] using h
    simp
  | cons d cs ih =>
    rw [splitAll] at h
    split at h
    · rcases List.mem_cons.1 h with rfl | h
      · simp
      · exact ih h
    · next hd =>
      obtain ⟨first, more, hsplit⟩ := List.exists_cons_of_ne_nil (splitAll_ne_nil c cs)
      rw [hsplit] at h ih
      rcases List.mem_cons.1 h with rfl | h
      · simpa [Ne.symm hd] using ih List.mem_cons_self
      · exact ih (List.mem_cons_of_mem _ h)

/-- **Pieces that are joined are found again.** -/
theorem splitAll_joined {c : Char} {names : List (List Char)} (hne : names ≠ [])
    (h : ∀ cs ∈ names, c ∉ cs) : splitAll c (List.intercalate [c] names) = names := by
  induction names with
  | nil => exact (hne rfl).elim
  | cons first names ih =>
    obtain ⟨hfirst, hnames⟩ := List.forall_mem_cons.1 h
    cases names with
    | nil => simp [List.intercalate, splitAll_of_not_mem hfirst]
    | cons next names =>
      have hjoin : List.intercalate [c] (first :: next :: names) =
          first ++ c :: List.intercalate [c] (next :: names) := by
        simp [List.intercalate]
      rw [hjoin, splitAll_append, splitAll_of_not_mem hfirst, ih (by simp) hnames]
      rfl

/-! ## Trimming -/

/-- Blanks in front make no difference to what is trimmed. -/
theorem trim_dropWhile : trim p (cs.dropWhile p) = trim p cs := by
  rw [trim, trim, List.dropWhile_idempotent]

theorem trimEnd_cons (hc : p c = false) : trimEnd p (c :: cs) = c :: trimEnd p cs := by
  rw [trimEnd, List.reverse_cons, dropWhile_append_stop hc]
  simp [trimEnd]

/-- Trimming loses nothing but what is trimmed. -/
theorem mem_trim (hc : p c = false) : c ∈ trim p cs ↔ c ∈ cs := by
  have hdrop : ∀ ds : List Char, c ∈ ds.dropWhile p ↔ c ∈ ds := by
    intro ds
    refine ⟨(List.dropWhile_suffix p).mem, fun h => ?_⟩
    rw [← List.takeWhile_append_dropWhile (p := p) (l := ds), List.mem_append] at h
    rcases h with h | h
    · exact absurd (List.mem_takeWhile_imp h) (by simp [hc])
    · exact h
  rw [trim, trimEnd, List.mem_reverse, hdrop, List.mem_reverse, hdrop]

/-- What is trimmed has nothing more to lose. -/
theorem trim_trim : trim p (trim p cs) = trim p cs := by
  have hend : ∀ ds : List Char, trimEnd p (trimEnd p ds) = trimEnd p ds := by
    intro ds
    rw [trimEnd, trimEnd, List.reverse_reverse, List.dropWhile_idempotent]
  have hstart : (trim p cs).dropWhile p = trim p cs := by
    have hhead := List.head?_dropWhile_not p cs
    rw [trim]
    cases hds : cs.dropWhile p with
    | nil => rfl
    | cons d ds =>
      rw [hds] at hhead
      rw [trimEnd_cons hhead, List.dropWhile_cons_of_neg (by simpa using hhead)]
  rw [trim, hstart, trim, hend]

/-- A trimmed text does not end with what is trimmed. -/
theorem getLast?_of_trim (h : trim p cs = cs) (hc : cs.getLast? = some c) :
    p c = false := by
  have hhead := List.head?_dropWhile_not p (cs.dropWhile p).reverse
  have hlast : ((cs.dropWhile p).reverse.dropWhile p).head? = some c := by
    rw [← h, trim, trimEnd, List.getLast?_reverse] at hc
    exact hc
  rw [hlast] at hhead
  simpa using hhead

/-- And a trimmed text that is not empty does not consist of blanks. -/
theorem isBlankText_of_strip (h : strip cs = cs) (hne : cs ≠ []) : isBlankText cs = false := by
  obtain ⟨c, hc⟩ := Option.isSome_iff_exists.1 (List.getLast?_isSome.2 hne)
  have hblank := getLast?_of_trim h hc
  refine Bool.eq_false_iff.2 fun hall => ?_
  have hcontra := List.all_eq_true.1 hall c (List.mem_of_getLast? hc)
  rw [hblank] at hcontra
  cases hcontra

/-- Nothing is trimmed where neither end is one of the characters to trim. -/
theorem trim_of_ends (hhead : ∀ c ∈ cs.head?, p c = false)
    (hlast : ∀ c ∈ cs.getLast?, p c = false) : trim p cs = cs := by
  cases cs with
  | nil => rfl
  | cons c cs =>
    have hstart : (c :: cs).dropWhile p = c :: cs :=
      List.dropWhile_cons_of_neg (by simp [hhead c rfl])
    have hend : (c :: cs).reverse.dropWhile p = (c :: cs).reverse := by
      cases hrev : (c :: cs).reverse with
      | nil => rfl
      | cons d ds =>
        have hd : p d = false := hlast d (by
          rw [Option.mem_def, ← List.head?_reverse, hrev]
          rfl)
        exact List.dropWhile_cons_of_neg (by simp [hd])
    rw [trim, hstart, trimEnd, hend, List.reverse_reverse]

/-- Nothing is lost between two characters that are no white space. -/
theorem trim_enclosed {a b : Char} (ha : p a = false) (hb : p b = false) :
    trim p (a :: (cs ++ [b])) = a :: (cs ++ [b]) := by
  simp [trim, trimEnd, ha, hb]

/-! ## Replacing -/

@[simp] theorem replaceChar_nil {new : List Char} : replaceChar c new [] = [] := rfl

theorem replaceChar_cons_self {new : List Char} :
    replaceChar c new (c :: cs) = new ++ replaceChar c new cs := by
  simp [replaceChar]

theorem replaceChar_cons_of_ne {new : List Char} {d : Char} (h : d ≠ c) :
    replaceChar c new (d :: cs) = d :: replaceChar c new cs := by
  simp [replaceChar, h]

theorem replaceChar_of_not_mem {new : List Char} (h : c ∉ cs) : replaceChar c new cs = cs := by
  induction cs with
  | nil => rfl
  | cons d cs ih =>
    obtain ⟨hd, hcs⟩ := not_or.1 (mt List.mem_cons.2 h)
    rw [replaceChar_cons_of_ne (Ne.symm hd), ih hcs]

theorem length_replaceChar (c a b : Char) (cs : List Char) :
    (replaceChar c [a, b] cs).length = cs.length + cs.count c := by
  induction cs with
  | nil => rfl
  | cons d cs ih =>
    by_cases hd : d = c
    · subst hd
      rw [replaceChar_cons_self, List.length_append, ih, List.count_cons_self]
      simp only [List.length_cons, List.length_nil]
      omega
    · rw [replaceChar_cons_of_ne hd, List.length_cons, ih, List.count_cons_of_ne hd,
        List.length_cons]
      omega

/-- Two characters in place of one make a text longer, where there is that one. -/
theorem not_mem_of_length_replaceChar_le {a b : Char}
    (h : (replaceChar c [a, b] cs).length ≤ cs.length) : c ∉ cs := by
  rw [length_replaceChar] at h
  exact List.count_eq_zero.1 (by omega)

theorem replacePair_cons_of_ne {a b : Char} {new : List Char} (h : c ≠ a) :
    replacePair a b new (c :: cs) = c :: replacePair a b new cs := by
  cases cs with
  | nil => rfl
  | cons d cs => rw [replacePair, if_neg fun hcd => h hcd.1]

/-- No pair begins before a text that holds no second character of it, unless
it reaches into what follows. -/
theorem replacePair_append {a b : Char} {new : List Char} (hb : b ∉ cs)
    (hend : cs.getLast? = some a → ds.head? ≠ some b) :
    replacePair a b new (cs ++ ds) = cs ++ replacePair a b new ds := by
  induction cs with
  | nil => rfl
  | cons c cs ih =>
    obtain ⟨-, hcs⟩ := not_or.1 (mt List.mem_cons.2 hb)
    cases cs with
    | nil =>
      cases ds with
      | nil => rfl
      | cons d ds =>
        have hpair : ¬ (c = a ∧ d = b) := by
          rintro ⟨rfl, rfl⟩
          exact hend rfl rfl
        rw [List.singleton_append, List.singleton_append, replacePair, if_neg hpair]
    | cons d cs =>
      have hpair : ¬ (c = a ∧ d = b) := by
        rintro ⟨-, rfl⟩
        exact hcs List.mem_cons_self
      have hrest := ih hcs (by simpa using hend)
      rw [List.cons_append, List.cons_append, replacePair, if_neg hpair, ← List.cons_append, hrest]
      rfl

theorem replacePair_append_of_not_mem {a b : Char} {new : List Char} (ha : a ∉ cs) :
    replacePair a b new (cs ++ ds) = cs ++ replacePair a b new ds := by
  induction cs with
  | nil => rfl
  | cons c cs ih =>
    obtain ⟨hc, hcs⟩ := not_or.1 (mt List.mem_cons.2 ha)
    rw [List.cons_append, replacePair_cons_of_ne (Ne.symm hc), ih hcs, List.cons_append]

/-- A text without the pair stays as it is. -/
theorem replacePair_of_not_infix {a b : Char} {new : List Char} (h : ¬ [a, b] <:+: cs) :
    replacePair a b new cs = cs := by
  fun_induction replacePair a b new cs with
  | case1 => rfl
  | case2 => rfl
  | case3 c d cs hpair _ =>
    obtain ⟨rfl, rfl⟩ := hpair
    exact absurd ⟨[], cs, rfl⟩ h
  | case4 c d cs _ ih =>
    have hrest : ¬ [a, b] <:+: d :: cs := fun hinfix => h (List.infix_cons hinfix)
    rw [ih hrest]

/-- What is in no pair stays. -/
theorem mem_replacePair {a b : Char} {new : List Char} (ha : c ≠ a) (hb : c ≠ b) (h : c ∈ cs) :
    c ∈ replacePair a b new cs := by
  fun_induction replacePair a b new cs with
  | case1 => exact h
  | case2 => exact h
  | case3 d e cs hpair ih =>
    obtain ⟨rfl, rfl⟩ := hpair
    have hmem : c ∈ cs := by simpa [ha, hb] using h
    exact List.mem_append_right new (ih hmem)
  | case4 d e cs _ ih =>
    rcases List.mem_cons.1 h with rfl | hmem
    · exact List.mem_cons_self
    · exact List.mem_cons_of_mem d (ih hmem)

/-- **A character that is written twice is read once.** -/
theorem replacePair_replaceChar (c : Char) (cs : List Char) :
    replacePair c c [c] (replaceChar c [c, c] cs) = cs := by
  induction cs with
  | nil => rfl
  | cons d cs ih =>
    by_cases hd : d = c
    · subst hd
      rw [replaceChar_cons_self]
      simp [replacePair, ih]
    · rw [replaceChar_cons_of_ne hd, replacePair_cons_of_ne hd, ih]

end Text

end ApiSnippets
