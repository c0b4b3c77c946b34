import ApiSnippets.Code.Dialect
import ApiSnippets.Proofs.Naming
import ApiSnippets.Proofs.Number.Text
import ApiSnippets.Proofs.Text.Brackets
import ApiSnippets.Proofs.Text.Cut
import ApiSnippets.Proofs.Text.Tokens
/-!
# Qualifiers in code

The names that qualify other names in a line of code: what stands in front of
the first point of each run of characters between marks, where texts between
double quotes are left out and numbers are no names (`qualifiers`). A piece of
code shows some qualifiers wherever it stands between marks (`Shows`), and
pieces are put together with marks between them (`Shows.append`).
-/

namespace ApiSnippets

namespace Qualifiers

open Brackets (Mode)

/-! ## The reader -/

/-- Code without its texts, of which the quotes stay. -/
def bare : Mode → List Char → List Char
  | _, [] => []
  | .code, c :: cs => c :: bare (if c = '"' then .text else .code) cs
  | .text, c :: cs =>
    if c = '"' then c :: bare .code cs
    else bare (if c = '\\' then .escaped else .text) cs
  | .escaped, _ :: cs => bare .text cs

/-- A character that is no part of a name and belongs to none. -/
def isMark (c : Char) : Bool :=
  " \t\n\"()[]\x7b\x7d&,:=|".toList.contains c

/-- A character that a name can begin with: neither a digit nor a sign. -/
def isStart (c : Char) : Bool :=
  !(Naming.isNumeral c || c == '+' || c == '-')

/-- The name in front of the first point of a run. -/
def qualifier? (run : List Char) : Option String :=
  match run.takeWhile (· ≠ '.'), run.dropWhile (· ≠ '.') with
  | c :: name, _ :: _ => if isStart c then some (String.ofList (c :: name)) else none
  | _, _ => none

/-- The qualifiers in code without texts. -/
def inBare (cs : List Char) : List String :=
  (Text.fields isMark cs).filterMap qualifier?

/-- **The names that qualify others in a line of code.** -/
def qualifiers (line : String) : List String :=
  inBare (bare .code line.toList)

variable {s t m name : String} {qs rs : List String} {c : Char} {cs ds : List Char}

/-! ## Texts -/

/-- What code becomes without its texts, if no quote is open behind it. -/
def Leaves (s : String) (code : List Char) : Prop :=
  ∀ rest, bare .code (s.toList ++ rest) = code ++ bare .code rest

theorem Leaves.append (hs : Leaves s cs) (ht : Leaves t ds) : Leaves (s ++ t) (cs ++ ds) := by
  intro rest
  rw [String.toList_append, List.append_assoc, hs, ht, List.append_assoc]

theorem leaves_of_not_mem (h : '"' ∉ s.toList) : Leaves s s.toList := by
  intro rest
  generalize s.toList = cs at h
  induction cs with
  | nil => rfl
  | cons c cs ih =>
    obtain ⟨hc, hcs⟩ := not_or.1 (mt List.mem_cons.2 h)
    rw [List.cons_append, bare, if_neg (Ne.symm hc), ih hcs, List.cons_append]

theorem bare_text_append (h : ∀ c ∈ cs, c ∉ ['"', '\\', '\t', '\n']) (rest : List Char) :
    bare .text (cs ++ rest) = bare .text rest := by
  induction cs with
  | nil => rfl
  | cons c cs ih =>
    obtain ⟨hc, hcs⟩ := List.forall_mem_cons.1 h
    simp only [List.mem_cons, not_or] at hc
    rw [List.cons_append, bare, if_neg hc.1, if_neg hc.2.1, ih hcs]

/-- What is escaped stays in its text. -/
theorem bare_text_escapeDouble (c : Char) (rest : List Char) :
    bare .text (Text.escapeDouble c ++ rest) = bare .text rest := by
  unfold Text.escapeDouble
  split
  · rfl
  · next hnone =>
    split
    · -- the letter of the escape is passed over, and its digits are plain
      exact bare_text_append (fun d hd => Brackets.mem_hexFixed hd) rest
    · refine bare_text_append ?_ rest
      simpa using Brackets.not_mem_of_no_escape hnone

/-- **A quoted text leaves its quotes**, whatever it holds. -/
theorem leaves_doubleQuoted (s : String) : Leaves (Text.doubleQuoted s) ['"', '"'] := by
  intro rest
  have hinner : ∀ more,
      bare .text (s.toList.flatMap Text.escapeDouble ++ more) = bare .text more := by
    intro more
    induction s.toList with
    | nil => rfl
    | cons c cs ih => rw [List.flatMap_cons, List.append_assoc, bare_text_escapeDouble, ih]
  have htext : (Text.doubleQuoted s).toList ++ rest =
      '"' :: (s.toList.flatMap Text.escapeDouble ++ '"' :: rest) := by
    simp [Text.doubleQuoted, Text.doubleQuotedChars]
  rw [htext, bare, if_pos rfl, hinner]
  rfl

/-! ## Runs -/

/-- A piece of code that shows these qualifiers between marks. -/
def Shows (s : String) (qs : List String) : Prop :=
  ∃ code, Leaves s code ∧ inBare code = qs

theorem Shows.qualifiers (h : Shows s qs) : qualifiers s = qs := by
  obtain ⟨code, hleaves, hcode⟩ := h
  have hbare : bare .code s.toList = code := by
    have hend := hleaves []
    simpa [bare] using hend
  rw [Qualifiers.qualifiers, hbare, hcode]

theorem inBare_append (hc : isMark c = true) : inBare (cs ++ c :: ds) = inBare cs ++ inBare ds := by
  rw [inBare, Text.fields_append hc, List.filterMap_append]
  rfl

theorem inBare_marks (h : ∀ c ∈ cs, isMark c = true) : inBare (cs ++ ds) = inBare ds := by
  induction cs with
  | nil => rfl
  | cons c cs ih =>
    obtain ⟨hc, hcs⟩ := List.forall_mem_cons.1 h
    rw [List.cons_append, inBare, Text.fields_cons_separator hc, ← inBare, ih hcs]

/-- Marks between pieces of code, none of them a quote. -/
structure IsGlue (m : String) : Prop where
  ne_nil : m.toList ≠ []
  marks : ∀ c ∈ m.toList, isMark c = true
  quote : '"' ∉ m.toList

instance (m : String) : Decidable (IsGlue m) :=
  decidable_of_iff (m.toList ≠ [] ∧ m.toList.all isMark = true ∧ '"' ∉ m.toList)
    ⟨fun h => ⟨h.1, List.all_eq_true.1 h.2.1, h.2.2⟩,
      fun h => ⟨h.ne_nil, List.all_eq_true.2 h.marks, h.quote⟩⟩

/-- **Pieces are put together with marks between them.** -/
theorem Shows.append (hs : Shows s qs) (hm : IsGlue m) (ht : Shows t rs) :
    Shows (s ++ m ++ t) (qs ++ rs) := by
  obtain ⟨cs, hcs, rfl⟩ := hs
  obtain ⟨ds, hds, rfl⟩ := ht
  refine ⟨cs ++ m.toList ++ ds, (hcs.append (leaves_of_not_mem hm.quote)).append hds, ?_⟩
  obtain ⟨c, more, hmore⟩ := List.exists_cons_of_ne_nil hm.ne_nil
  obtain ⟨hc, hmarks⟩ := List.forall_mem_cons.1 (hmore ▸ hm.marks)
  rw [hmore, List.append_assoc, List.cons_append, inBare_append hc, inBare_marks hmarks]

theorem shows_empty : Shows "" [] :=
  ⟨[], leaves_of_not_mem (by simp), rfl⟩

theorem Shows.left (hs : Shows s qs) (hm : IsGlue m) : Shows (s ++ m) qs := by
  have hend := hs.append hm shows_empty
  rwa [String.append_empty, List.append_nil] at hend

theorem Shows.right (hs : Shows s qs) (hm : IsGlue m) : Shows (m ++ s) qs := by
  have hstart := shows_empty.append hm hs
  rwa [String.empty_append, List.nil_append] at hstart

theorem shows_glue (hm : IsGlue m) : Shows m [] := by
  simpa using shows_empty.left hm

/-- Pieces that show one name each, joined by marks. -/
theorem shows_intercalate {sep : String} {ss : List String} (hsep : IsGlue sep)
    (h : ∀ s ∈ ss, Shows s [name]) :
    Shows (String.intercalate sep ss) (List.replicate ss.length name) := by
  induction ss with
  | nil => exact shows_empty
  | cons s ss ih =>
    obtain ⟨hs, hss⟩ := List.forall_mem_cons.1 h
    cases ss with
    | nil => simpa using hs
    | cons t ss =>
      rw [String.intercalate_cons_cons]
      exact hs.append hsep (ih hss)

/-! ## Names and numbers -/

/-- A text without marks, which is a part of a single run. -/
def IsRun (s : String) : Prop :=
  ∀ c ∈ s.toList, isMark c = false

instance (s : String) : Decidable (IsRun s) :=
  decidable_of_iff ((s.toList.all fun c => decide (isMark c = false)) = true)
    ⟨Text.forall_of_all, fun h => List.all_eq_true.2 fun c hc => decide_eq_true (h c hc)⟩

theorem IsRun.append (hs : IsRun s) (ht : IsRun t) : IsRun (s ++ t) := by
  rw [IsRun, String.toList_append]
  exact List.forall_mem_append.2 ⟨hs, ht⟩

theorem shows_run (h : IsRun s) : Shows s (qualifier? s.toList).toList := by
  have hquote : '"' ∉ s.toList := fun hc => absurd (h _ hc) (by decide)
  refine ⟨s.toList, leaves_of_not_mem hquote, ?_⟩
  by_cases hs : s.toList = []
  · rw [hs]
    rfl
  · rw [inBare, Text.fields_of_run h hs]
    cases hq : qualifier? s.toList <;> simp [hq]

theorem qualifier?_of_not_mem (h : '.' ∉ cs) : qualifier? cs = none := by
  have hdrop : cs.dropWhile (· ≠ '.') = [] := by
    refine List.dropWhile_eq_nil_iff.2 fun c hc => decide_eq_true ?_
    rintro rfl
    exact h hc
  rw [qualifier?, hdrop]
  split <;> simp_all

theorem qualifier?_of_head (h : ∀ c ∈ cs.head?, isStart c = false) : qualifier? cs = none := by
  cases cs with
  | nil => rfl
  | cons c cs =>
    have hc : isStart c = false := h c rfl
    by_cases hpoint : c = '.'
    · subst hpoint
      rfl
    · rw [qualifier?, List.takeWhile_cons_of_pos (by simpa using hpoint)]
      split
      · next hname _ =>
        obtain ⟨rfl, -⟩ := List.cons.inj hname
        rw [hc]
        rfl
      · rfl

/-- A name as packages and variables can have it. -/
structure IsPlain (name : String) : Prop where
  run : IsRun name
  point : '.' ∉ name.toList

instance (name : String) : Decidable (IsPlain name) :=
  decidable_of_iff (IsRun name ∧ '.' ∉ name.toList)
    ⟨fun h => ⟨h.1, h.2⟩, fun h => ⟨h.run, h.point⟩⟩

theorem IsPlain.append (hs : IsPlain s) (ht : IsPlain t) : IsPlain (s ++ t) where
  run := hs.run.append ht.run
  point := by
    rw [String.toList_append]
    exact List.not_mem_append hs.point ht.point

/-- Letters and digits neither part names nor qualify them. -/
theorem plain_of_isWordChar (h : Naming.isWordChar c = true) : isMark c = false ∧ c ≠ '.' :=
  Naming.of_isWordChar (P := fun c => isMark c = false ∧ c ≠ '.') (by decide +kernel) h

/-- Letters, digits and underscores make names. -/
theorem IsPlain.of_isWordChar (h : ∀ c ∈ s.toList, Naming.isWordChar c = true ∨ c = '_') :
    IsPlain s := by
  have hplain : ∀ c ∈ s.toList, isMark c = false ∧ c ≠ '.' := by
    intro c hc
    rcases h c hc with hword | rfl
    · exact plain_of_isWordChar hword
    · decide
  exact ⟨fun c hc => (hplain c hc).1, fun hc => (hplain '.' hc).2 rfl⟩

theorem shows_plain (h : IsPlain s) : Shows s [] := by
  have hrun := shows_run h.run
  rwa [qualifier?_of_not_mem h.point] at hrun

theorem qualifier?_selector (hname : '.' ∉ name.toList) :
    qualifier? (name.toList ++ '.' :: ds) =
      if name.toList.head?.any isStart then some name else none := by
  have hall : ∀ c ∈ name.toList, decide (c ≠ '.') = true := by
    intro c hc
    refine decide_eq_true ?_
    rintro rfl
    exact hname hc
  rw [qualifier?, Text.takeWhile_run hall (by decide), Text.dropWhile_run hall (by decide)]
  cases hchars : name.toList with
  | nil => rfl
  | cons c cs =>
    have htext : String.ofList (c :: cs) = name := by rw [← hchars, String.ofList_toList]
    show (if isStart c then some (String.ofList (c :: cs)) else none) =
      if isStart c then some name else none
    rw [htext]

/-- A name with another one behind it, which may be qualified itself. -/
theorem shows_member {member : String} (hname : IsPlain name) (hmember : IsRun member) :
    Shows (name ++ "." ++ member) (if name.toList.head?.any isStart then [name] else []) := by
  have hpoint : IsRun "." := by decide
  have hrun : IsRun (name ++ "." ++ member) := (hname.run.append hpoint).append hmember
  have hchars : (name ++ "." ++ member).toList = name.toList ++ '.' :: member.toList := by
    simp
  have hshows := shows_run hrun
  rw [hchars, qualifier?_selector hname.point] at hshows
  split at hshows
  · next hstart =>
    rw [if_pos hstart]
    exact hshows
  · next hstart =>
    rw [if_neg hstart]
    exact hshows

/-- **A name shows where another one stands behind it**, when it begins as one. -/
theorem shows_selector {member : String} (hname : IsPlain name)
    (hstart : name.toList.head?.any isStart = true) (hmember : IsRun member) :
    Shows (name ++ "." ++ member) [name] := by
  have hshows := shows_member hname hmember
  rwa [if_pos hstart] at hshows

/-! ## Numbers -/

theorem isRun_of_isWritten (h : Number.IsWritten s) : IsRun s := by
  intro c hc
  have hwritten := h c hc
  rw [Number.isWritten, Bool.or_eq_true] at hwritten
  rcases hwritten with hword | hsign
  · exact (plain_of_isWordChar hword).1
  · have hsigns : ∀ d ∈ ['+', '-', '.'], isMark d = false := Text.forall_of_all (by decide)
    exact hsigns c (List.contains_iff_mem.1 hsign)

/-- That a text is no name with a point behind it: it has no point, or begins
like a number. -/
def IsUnnamed (cs : List Char) : Prop :=
  '.' ∉ cs ∨ ∃ c more, cs = c :: more ∧ isStart c = false

theorem qualifier?_of_isUnnamed (h : IsUnnamed cs) : qualifier? cs = none := by
  rcases h with h | ⟨c, more, rfl, hc⟩
  · exact qualifier?_of_not_mem h
  · refine qualifier?_of_head fun d hd => ?_
    obtain rfl := Option.some.inj hd
    exact hc

/-- That a text begins like a number. -/
def BeginsNumber (s : String) : Prop :=
  ∃ c more, s.toList = c :: more ∧ isStart c = false

theorem BeginsNumber.append (h : BeginsNumber s) (t : String) : BeginsNumber (s ++ t) := by
  obtain ⟨c, more, hs, hc⟩ := h
  exact ⟨c, more ++ t.toList, by rw [String.toList_append, hs, List.cons_append], hc⟩

theorem isStart_digit {n : Nat} (h : c ∈ (toString n).toList) : isStart c = false := by
  rw [Nat.toString_eq_ofList_toDigits, String.toList_ofList] at h
  have hdigit : Naming.isNumeral c = true := Nat.isDigit_of_mem_toDigits (by decide) (by decide) h
  simp [isStart, hdigit]

/-- The digits of a decimal begin with one. -/
theorem exists_digitChars (d : Number.Decimal) :
    ∃ c more, d.digitChars = c :: more ∧ isStart c = false := by
  unfold Number.Decimal.digitChars
  split
  · exact ⟨'0', [], rfl, rfl⟩
  · next hne =>
    obtain ⟨c, more, hdigits⟩ := List.exists_cons_of_ne_nil hne
    have hmem : c ∈ (toString d.digits).toList := by
      have hfirst : c ∈ Text.trimEnd (· == '0') (toString d.digits).toList :=
        hdigits ▸ List.mem_cons_self
      rw [Text.trimEnd, List.mem_reverse] at hfirst
      exact List.mem_reverse.1 ((List.dropWhile_sublist _).mem hfirst)
    exact ⟨c, more, hdigits, isStart_digit hmem⟩

theorem beginsNumber_arrange (l : Number.Layout) (top : Int) (hc : isStart c = false) :
    BeginsNumber (l.arrange (c :: cs) top) := by
  unfold Number.Layout.arrange
  split
  · split
    · exact BeginsNumber.append ⟨'0', ['.'], rfl, rfl⟩ _
    · refine (BeginsNumber.append ?_ _).append _
      exact ⟨c, _, by rw [String.toList_ofList, List.take_succ_cons, List.cons_append], hc⟩
  · refine (((BeginsNumber.append ?_ _).append _).append _).append _
    exact ⟨c, [], by simp, hc⟩

theorem beginsNumber_int (n : Int) : BeginsNumber (toString n) := by
  cases n with
  | ofNat n =>
    obtain ⟨c, more, hcs⟩ := List.exists_cons_of_ne_nil
      (fun h => Nat.repr_ne_empty (String.toList_eq_nil_iff.1 h) : (toString n).toList ≠ [])
    exact ⟨c, more, hcs, isStart_digit (n := n) (hcs ▸ List.mem_cons_self)⟩
  | negSucc n => exact BeginsNumber.append ⟨'-', [], rfl, rfl⟩ (toString (n + 1))

/-- A double begins like a number, unless it is spelled as a word. -/
theorem floatText_cases (x : Float) :
    Number.floatText x ∈ ["nan", "inf"] ∨ BeginsNumber (Number.floatText x) := by
  have hsign : ∀ (negative : Bool) {t : String}, BeginsNumber t →
      BeginsNumber ((if negative then "-" else "") ++ t) := by
    intro negative t ht
    cases negative with
    | true => exact BeginsNumber.append ⟨'-', [], rfl, rfl⟩ t
    | false => simpa using ht
  unfold Number.floatText Number.Layout.writeBits
  split
  · exact .inl (by decide)
  · next negative _ =>
    cases negative with
    | true => exact .inr ⟨'-', ['i', 'n', 'f'], rfl, rfl⟩
    | false => exact .inl (by decide)
  · right
    dsimp only
    split
    · exact hsign _ ⟨'0', ['.', '0'], rfl, rfl⟩
    · obtain ⟨c, more, hdigits, hc⟩ := exists_digitChars (Number.shortest _ _)
      rw [hdigits]
      exact hsign _ (beginsNumber_arrange _ _ hc)

/-- The digits of a number are those of a double, if its type is fractional, and
those of an integer otherwise. -/
theorem digits_cases {v : Numeral} {t : NumberType} (h : Dialect.digits v t = .ok s) :
    (t.fractional = true ∧ ∃ x, s = Number.floatText x) ∨
      t.fractional = false ∧ ∃ n : Int, s = toString n := by
  unfold Dialect.digits at h
  split at h
  · next n hfractional =>
    split at h
    · next x _ =>
      exact .inl ⟨hfractional, x, (Except.ok.inj h).symm⟩
    · cases h
  · next x hfractional => exact .inl ⟨hfractional, x, (Except.ok.inj h).symm⟩
  · next n hwhole => exact .inr ⟨hwhole, n, (Except.ok.inj h).symm⟩
  · next x hwhole =>
    split at h
    · next n _ => exact .inr ⟨hwhole, n, (Except.ok.inj h).symm⟩
    · cases h

/-- **Numbers qualify nothing.** -/
theorem shows_digits {v : Numeral} {t : NumberType} (h : Dialect.digits v t = .ok s) :
    Shows s [] := by
  have hwritten : Number.IsWritten s ∧ IsUnnamed s.toList := by
    rcases digits_cases h with ⟨-, x, rfl⟩ | ⟨-, n, rfl⟩
    · refine ⟨Number.isWritten_floatText x, ?_⟩
      rcases floatText_cases x with hword | hnumber
      · have hplain : ∀ w ∈ ["nan", "inf"], '.' ∉ w.toList := by decide
        exact .inl (hplain _ hword)
      · exact .inr hnumber
    · exact ⟨Number.isWritten_int n, .inr (beginsNumber_int n)⟩
  have hshows := shows_run (isRun_of_isWritten hwritten.1)
  rwa [qualifier?_of_isUnnamed hwritten.2] at hshows

end Qualifiers

end ApiSnippets
