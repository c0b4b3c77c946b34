import Mathlib.Data.List.Basic
import ApiSnippets.Json.Writer
import ApiSnippets.Proofs.Entries
import ApiSnippets.Proofs.Text.Cut
import ApiSnippets.Proofs.Text.Quoted
/-!
# Values read back

A JSON value is read back from what is written for it, in every layout whose
quotes a reader undoes and whose spaces it skips (`Spacing.Readable`,
`read_writeAt`). The value has to have a text of its own (`IsExact`): it holds
no double, no integer beyond the longest that is read, and no object with one
name twice.
-/

namespace ApiSnippets

namespace Json

open Quoted (Escapes)

/-- A value that its text determines. -/
inductive IsExact : Json → Prop
  | null : IsExact .null
  | bool (b : Bool) : IsExact (.bool b)
  | int {n : Int} : n.natAbs < Number.tenTo Number.maxDigits → IsExact (.int n)
  | str (s : String) : IsExact (.str s)
  | arr {items : List Json} : (∀ v ∈ items, IsExact v) → IsExact (.arr items)
  | obj {members : List (String × Json)} : (Entries.keys members).Nodup →
      (∀ p ∈ members, IsExact p.2) → IsExact (.obj members)

namespace Reader

variable {gap rest : List Char} {c : Char}

/-! ## Spaces -/

/-- Characters that are skipped between tokens. -/
def IsGap (gap : List Char) : Prop :=
  ∀ c ∈ gap, isGap c = true

theorem isGap_nil : IsGap [] := by
  simp [IsGap]

theorem IsGap.append {gap' : List Char} (h : IsGap gap) (h' : IsGap gap') : IsGap (gap ++ gap') :=
  List.forall_mem_append.2 ⟨h, h'⟩

theorem skip_append (h : IsGap gap) (hc : isGap c = false) : skip (gap ++ c :: rest) = c :: rest :=
  Text.dropWhile_run h hc

theorem skip_cons (hc : isGap c = false) : skip (c :: rest) = c :: rest :=
  List.dropWhile_cons_of_neg (by simp [hc])

/-- What may follow a number: nothing that a number goes on with. -/
def EndsNumber (rest : List Char) : Prop :=
  ∀ c ∈ rest.head?, Number.isNumeral c = false ∧ c ≠ '.' ∧ c ≠ 'e' ∧ c ≠ 'E'

theorem endsNumber_nil : EndsNumber [] := by
  simp [EndsNumber]

theorem endsNumber_of_isGap (hc : isGap c = true) : EndsNumber (c :: rest) := by
  intro d hd
  obtain rfl : c = d := by simpa using hd
  simp only [isGap, Bool.or_eq_true, beq_iff_eq] at hc
  rcases hc with ((rfl | rfl) | rfl) | rfl <;> decide

theorem IsGap.endsNumber (h : IsGap gap) : EndsNumber gap := by
  cases gap with
  | nil => exact endsNumber_nil
  | cons c gap => exact endsNumber_of_isGap (h c List.mem_cons_self)

/-- Spaces end a number, and so does what closes or separates values. -/
theorem endsNumber_append (h : IsGap gap) (hc : c = ',' ∨ c = ']' ∨ c = '\x7d') :
    EndsNumber (gap ++ c :: rest) := by
  cases gap with
  | nil =>
    intro d hd
    obtain rfl : c = d := by simpa using hd
    rcases hc with rfl | rfl | rfl <;> decide
  | cons g gap => exact endsNumber_of_isGap (h g List.mem_cons_self)

/-! ## Integers -/

theorem isNumeral_of_mem_toDigits {n : Nat} (hc : c ∈ Nat.toDigits 10 n) :
    Number.isNumeral c = true := by
  have hdigit : c.isDigit = true := Nat.isDigit_of_mem_toDigits (by decide) (by decide) hc
  simpa [Number.isNumeral, Char.isDigit, Char.le_def] using hdigit

/-- The digits of a positive number do not begin with a zero. -/
theorem head?_toDigits {n : Nat} (hn : 0 < n) : (Nat.toDigits 10 n).head? ≠ some '0' := by
  induction n using Nat.strongRecOn with
  | _ n ih =>
    by_cases hlt : n < 10
    · have hdigit : ∀ n < 10, 0 < n → [Nat.digitChar n].head? ≠ some '0' := by decide
      rw [Nat.toDigits_of_lt_base hlt]
      exact hdigit n hlt hn
    · rw [Nat.toDigits_of_base_le (by decide) (Nat.not_lt.1 hlt),
        List.head?_append_of_ne_nil _ Nat.toDigits_ne_nil]
      exact ih (n / 10) (by omega) (by omega)

theorem exists_toDigits (n : Nat) :
    ∃ d ds, Nat.toDigits 10 n = d :: ds ∧ ∀ c ∈ d :: ds, Number.isNumeral c = true := by
  obtain ⟨d, ds, hds⟩ := List.exists_cons_of_ne_nil (Nat.toDigits_ne_nil (n := n) (b := 10))
  exact ⟨d, ds, hds, fun c hc => isNumeral_of_mem_toDigits (hds ▸ hc)⟩

theorem toList_ofNat (n : Nat) : (toString (Int.ofNat n)).toList = Nat.toDigits 10 n := by
  show (toString n).toList = _
  rw [Nat.toString_eq_ofList_toDigits, String.toList_ofList]

theorem toList_negSucc (n : Nat) :
    (toString (Int.negSucc n)).toList = '-' :: Nat.toDigits 10 (n + 1) := by
  show ("-" ++ toString (n + 1)).toList = _
  rw [String.toList_append, Nat.toString_eq_ofList_toDigits, String.toList_ofList]
  simp

theorem wholePart_toDigits (n : Nat) (h : EndsNumber rest) :
    wholePart (Nat.toDigits 10 n ++ rest) = some (Nat.toDigits 10 n, rest) := by
  rcases Nat.eq_zero_or_pos n with rfl | hn
  · rfl
  obtain ⟨d, ds, hds, hdigits⟩ := exists_toDigits n
  have hzero : d ≠ '0' := by
    rintro rfl
    exact head?_toDigits hn (by rw [hds]; rfl)
  obtain ⟨hd, htail⟩ := List.forall_mem_cons.1 hdigits
  have hrun : (ds ++ rest).takeWhile Number.isNumeral = ds ∧
      (ds ++ rest).dropWhile Number.isNumeral = rest := by
    cases rest with
    | nil =>
      rw [List.append_nil]
      exact ⟨List.takeWhile_eq_self_iff.2 htail, List.dropWhile_eq_nil_iff.2 htail⟩
    | cons c more =>
      have hc := (h c rfl).1
      exact ⟨Text.takeWhile_run htail hc, Text.dropWhile_run htail hc⟩
  rw [hds, List.cons_append, wholePart.eq_def]
  simp [hd, hrun]

theorem fraction?_of_endsNumber (h : EndsNumber rest) : fraction? rest = none := by
  cases rest with
  | nil => rfl
  | cons c more =>
    have hpoint := (h c rfl).2.1
    rw [fraction?.eq_def]
    simp [hpoint]

theorem exponent?_of_endsNumber (h : EndsNumber rest) : exponent? rest = none := by
  cases rest with
  | nil => rfl
  | cons c more =>
    obtain ⟨-, -, hlower, hupper⟩ := h c rfl
    simp [exponent?, hlower, hupper]

theorem length_toDigits_le {n k : Nat} (hk : 0 < k) (hn : n < Number.tenTo k) :
    (Nat.toDigits 10 n).length ≤ k :=
  (Nat.length_toDigits_le_iff (by decide) hk).2 hn

theorem plainValue_toDigits (n : Nat) : Number.plainValue (Nat.toDigits 10 n) = n := by
  have hfold := Nat.ofDigitChars_ten_toDigits (n := n)
  rwa [Nat.ofDigitChars_eq_foldl] at hfold

theorem numeral_toDigits {n : Nat} (negative : Bool) (hn : n < Number.tenTo Number.maxDigits)
    (h : EndsNumber rest) :
    numeral negative (Nat.toDigits 10 n ++ rest) =
      .ok (.int (if negative then -(n : Int) else n), rest) := by
  have hlength : ¬ Number.maxDigits < (Nat.toDigits 10 n).length :=
    Nat.not_lt.2 (length_toDigits_le (by decide) hn)
  unfold numeral
  simp only [wholePart_toDigits n h, fraction?_of_endsNumber h, Option.getD_none,
    exponent?_of_endsNumber h, List.isEmpty_nil, Bool.not_true, Bool.false_eq_true, if_false,
    hlength, plainValue_toDigits]

/-- No fixed word begins with a digit, or with a digit behind a sign. -/
theorem word?_eq_none (hc : Number.isNumeral c = true) :
    word? (c :: rest) = none ∧ word? ('-' :: c :: rest) = none := by
  have hne : ∀ d, Number.isNumeral d = false → d ≠ c := by
    rintro d hd rfl
    simp [hc] at hd
  have hn := hne 'n' rfl
  have ht := hne 't' rfl
  have hf := hne 'f' rfl
  have hN := hne 'N' rfl
  have hI := hne 'I' rfl
  have hsign := hne '-' rfl
  simp [word?, wordTable, after?, hn, ht, hf, hN, hI, hsign]

/-- **An integer is read back**, if it is short enough to be read. -/
theorem scalar_toString {n : Int} (hn : n.natAbs < Number.tenTo Number.maxDigits)
    (h : EndsNumber rest) :
    scalar ((toString n).toList ++ rest) = .ok (.int n, rest) := by
  obtain ⟨d, ds, hds, hdigits⟩ := exists_toDigits n.natAbs
  have hd : Number.isNumeral d = true := hdigits d List.mem_cons_self
  have hread (negative : Bool) := numeral_toDigits negative hn h
  cases n with
  | ofNat n =>
    have hsign : d ≠ '-' := by
      rintro rfl
      exact absurd hd (by decide)
    have hplain := hread false
    rw [toList_ofNat]
    rw [hds, List.cons_append] at hplain
    unfold scalar
    rw [show Nat.toDigits 10 n = d :: ds from hds, List.cons_append, (word?_eq_none hd).1]
    simp [hsign, hplain]
  | negSucc n =>
    have hminus := hread true
    rw [Int.natAbs_negSucc] at hds hminus
    rw [toList_negSucc, List.cons_append]
    rw [hds, List.cons_append] at hminus ⊢
    unfold scalar
    rw [(word?_eq_none hd).2]
    simp [hminus, Int.negSucc_eq]

end Reader

open Reader

/-! ## Layouts -/

/-- A layout that is read back: the reader undoes its quotes, and what it puts
between tokens is skipped. -/
structure Spacing.Readable (sp : Spacing) : Prop where
  quote : ∃ escape, Escapes escape ∧
    ∀ s, (sp.quote s).toList = '"' :: (s.toList.flatMap escape ++ ['"'])
  lineBreak : ∀ depth, IsGap (sp.lineBreak depth).toList
  comma : ∃ gap, IsGap gap ∧ sp.comma.toList = ',' :: gap
  colon : ∃ gap, IsGap gap ∧ sp.colon.toList = ':' :: gap

theorem toList_lineBreak_indented (quote : String → String) (depth : Nat) :
    ((Spacing.indented quote).lineBreak depth).toList = '\n' :: List.replicate (2 * depth) ' ' := by
  simp [Spacing.indented]

/-- **A line per item and member is readable.** -/
theorem readable_indented : (Spacing.indented Text.asciiQuoted).Readable where
  quote := ⟨_, Quoted.escapes_escapeAscii, fun s => by
    show (Text.asciiQuoted s).toList = _
    rw [Text.asciiQuoted, String.toList_ofList, List.cons_append]⟩
  lineBreak depth := by
    rw [toList_lineBreak_indented]
    refine List.forall_mem_cons.2 ⟨rfl, fun c hc => ?_⟩
    rw [List.eq_of_mem_replicate hc]
    rfl
  comma := ⟨[], isGap_nil, rfl⟩
  colon := ⟨[' '], by simp [IsGap, isGap], rfl⟩

variable {sp : Spacing} {depth fuel : Nat} {v item : Json} {items : List Json}
variable {name : String} {members : List (String × Json)} {gap rest : List Char}

/-! ## One value -/

/-- That a value is read back from its text at every depth, with fuel for more
steps than the text has characters. The text begins with a character that is
neither skipped nor taken for the end of an array. -/
structure Reads (sp : Spacing) (v : Json) : Prop where
  opens : ∀ depth, ∃ c cs, (writeAt sp depth v).toList = c :: cs ∧ isGap c = false ∧ c ≠ ']'
  reads : ∀ depth fuel rest, (writeAt sp depth v).toList.length < fuel → EndsNumber rest →
    value fuel ((writeAt sp depth v).toList ++ rest) = .ok (v, rest)

theorem Reads.skip (h : Reads sp v) (depth : Nat) (hgap : IsGap gap) :
    skip (gap ++ ((writeAt sp depth v).toList ++ rest)) = (writeAt sp depth v).toList ++ rest := by
  obtain ⟨c, cs, htext, hc, -⟩ := h.opens depth
  rw [htext, List.cons_append, skip_append hgap hc]

theorem Reads.of_scalar (c : Char) (cs : List Char)
    (htext : ∀ depth, (writeAt sp depth v).toList = c :: cs)
    (hc : c ≠ '"' ∧ c ≠ '[' ∧ c ≠ '\x7b' ∧ isGap c = false ∧ c ≠ ']')
    (h : ∀ rest, EndsNumber rest → scalar (c :: (cs ++ rest)) = .ok (v, rest)) : Reads sp v where
  opens depth := ⟨c, cs, htext depth, hc.2.2.2⟩
  reads depth fuel rest hfuel hrest := by
    obtain ⟨fuel, rfl⟩ : ∃ n, fuel = n + 1 := ⟨fuel - 1, by omega⟩
    obtain ⟨hquote, hbracket, hbrace, -⟩ := hc
    rw [htext, List.cons_append, value.eq_def]
    simp [hquote, hbracket, hbrace, h rest hrest]

theorem reads_null : Reads sp .null :=
  .of_scalar 'n' ['u', 'l', 'l'] (fun _ => by rw [writeAt]; rfl) (by decide) fun _ _ => rfl

theorem reads_bool (b : Bool) : Reads sp (.bool b) := by
  cases b with
  | false =>
    exact .of_scalar 'f' ['a', 'l', 's', 'e'] (fun _ => by rw [writeAt]; rfl) (by decide)
      fun _ _ => rfl
  | true =>
    exact .of_scalar 't' ['r', 'u', 'e'] (fun _ => by rw [writeAt]; rfl) (by decide)
      fun _ _ => rfl

/-- A digit opens a number and nothing else. -/
theorem opens_of_isNumeral {c : Char} (hc : Number.isNumeral c = true) :
    c ≠ '"' ∧ c ≠ '[' ∧ c ≠ '\x7b' ∧ isGap c = false ∧ c ≠ ']' := by
  have hne : ∀ d, Number.isNumeral d = false → c ≠ d := by
    rintro d hd rfl
    simp [hc] at hd
  refine ⟨hne _ rfl, hne _ rfl, hne _ rfl, ?_, hne _ rfl⟩
  simp [isGap, hne ' ' rfl, hne '\t' rfl, hne '\n' rfl, hne '\r' rfl]

theorem reads_int {n : Int} (hn : n.natAbs < Number.tenTo Number.maxDigits) :
    Reads sp (.int n) := by
  have hscalar : ∀ rest, EndsNumber rest → scalar ((toString n).toList ++ rest) =
      .ok (.int n, rest) := fun _ => scalar_toString hn
  cases n with
  | ofNat n =>
    obtain ⟨d, ds, hds, hdigits⟩ := exists_toDigits n
    rw [toList_ofNat, hds] at hscalar
    refine .of_scalar d ds (fun _ => ?_) (opens_of_isNumeral (hdigits d List.mem_cons_self)) hscalar
    rw [writeAt, toList_ofNat, hds]
  | negSucc n =>
    rw [toList_negSucc] at hscalar
    exact .of_scalar _ _ (fun _ => by rw [writeAt, toList_negSucc]) (by decide) hscalar

/-- A name or a string is read up to its closing quote. -/
theorem Spacing.Readable.stringBody (hsp : sp.Readable) (s : String) :
    ∃ body, (sp.quote s).toList = '"' :: body ∧ ∀ rest,
      Reader.stringBody ((body ++ rest).length + 1) (body ++ rest) = .ok (s.toList, rest) := by
  obtain ⟨escape, hescape, hquote⟩ := hsp.quote
  refine ⟨_, hquote s, fun rest => ?_⟩
  simpa using hescape.body s.toList rest

theorem reads_str (hsp : sp.Readable) (s : String) : Reads sp (.str s) := by
  obtain ⟨body, hquote, hbody⟩ := hsp.stringBody s
  have htext : ∀ depth, (writeAt sp depth (.str s)).toList = '"' :: body := fun _ => by
    rw [writeAt, hquote]
  refine ⟨fun depth => ⟨_, _, htext depth, by decide⟩, fun depth fuel rest hfuel _ => ?_⟩
  obtain ⟨fuel, rfl⟩ : ∃ n, fuel = n + 1 := ⟨fuel - 1, by omega⟩
  rw [htext, List.cons_append, value, hbody]
  simp only [bind, Except.bind, pure, Except.pure, String.ofList_toList]

/-! ## Containers -/

theorem Spacing.Readable.endsNumber_comma (hsp : sp.Readable) :
    EndsNumber (sp.comma.toList ++ rest) := by
  obtain ⟨gap, -, hcomma⟩ := hsp.comma
  rw [hcomma, List.cons_append]
  exact endsNumber_append isGap_nil (.inl rfl)

/-- What is read up to the closing bracket, once an item is read. -/
def afterItem (fuel : Nat) (item : Json) (rest : List Char) :
    Except ReadFault (List Json × List Char) :=
  match skip rest with
  | ']' :: rest => pure ([item], rest)
  | ',' :: rest => do
    let (items, rest) ← itemsFrom fuel (skip rest)
    pure (item :: items, rest)
  | _ => .error .malformed

theorem itemsFrom_item (h : Reads sp item) (hfuel : (writeAt sp depth item).toList.length < fuel)
    (hrest : EndsNumber rest) :
    itemsFrom (fuel + 1) ((writeAt sp depth item).toList ++ rest) = afterItem fuel item rest := by
  rw [itemsFrom, h.reads depth fuel rest hfuel hrest]
  rfl

theorem itemsFrom_writeItems (depth fuel : Nat) (rest : List Char) (hsp : sp.Readable)
    (hgap : IsGap gap)
    (h : ∀ v ∈ item :: items, Reads sp v)
    (hfuel : ((writeAt sp depth item).toList ++ ((writeItems sp depth items).toList ++
      gap)).length + 1 < fuel) :
    itemsFrom fuel ((writeAt sp depth item).toList ++ ((writeItems sp depth items).toList ++
      (gap ++ ']' :: rest))) = .ok (item :: items, rest) := by
  obtain ⟨fuel, rfl⟩ : ∃ n, fuel = n + 1 := ⟨fuel - 1, by omega⟩
  obtain ⟨hitem, htail⟩ := List.forall_mem_cons.1 h
  have hfirst : (writeAt sp depth item).toList.length < fuel := by
    rw [List.length_append] at hfuel
    omega
  induction items generalizing item fuel with
  | nil =>
    rw [writeItems, String.toList_empty, List.nil_append,
      itemsFrom_item hitem hfirst (endsNumber_append hgap (.inr (.inl rfl))), afterItem,
      skip_append hgap rfl]
    rfl
  | cons next items ih =>
    obtain ⟨space, hspace, hcomma⟩ := hsp.comma
    obtain ⟨hnext, hmore⟩ := List.forall_mem_cons.1 htail
    obtain ⟨fuel, rfl⟩ : ∃ n, fuel = n + 1 := ⟨fuel - 1, by omega⟩
    simp only [writeItems, String.toList_append, List.append_assoc] at hfuel ⊢
    -- the comma ends a number, and the break behind it is passed over
    rw [itemsFrom_item hitem hfirst hsp.endsNumber_comma, afterItem]
    rw [hcomma, List.cons_append] at hfuel ⊢
    have hlength : ((writeAt sp depth next).toList ++ ((writeItems sp depth items).toList ++
        gap)).length + 1 < fuel + 1 := by
      simp only [List.length_append, List.length_cons] at hfuel ⊢
      omega
    rw [skip_cons rfl]
    simp only [← List.append_assoc space]
    rw [hnext.skip depth (hspace.append (hsp.lineBreak depth)), ih htail fuel hlength hnext hmore
      (by rw [List.length_append] at hlength; omega)]
    rfl

theorem reads_arr (hsp : sp.Readable) (h : ∀ v ∈ items, Reads sp v) : Reads sp (.arr items) := by
  cases items with
  | nil =>
    have htext : ∀ depth, (writeAt sp depth (.arr [])).toList = ['[', ']'] := fun _ => by
      rw [writeAt]
      rfl
    refine ⟨fun depth => ⟨_, _, htext depth, by decide⟩, fun depth fuel rest hfuel _ => ?_⟩
    obtain ⟨fuel, rfl⟩ : ∃ n, fuel = n + 1 := ⟨fuel - 1, by omega⟩
    rw [htext, List.cons_append, List.singleton_append, value, skip_cons rfl]
    rfl
  | cons item items =>
    have htext : ∀ depth, (writeAt sp depth (.arr (item :: items))).toList =
        '[' :: ((sp.lineBreak (depth + 1)).toList ++ ((writeAt sp (depth + 1) item).toList ++
          ((writeItems sp (depth + 1) items).toList ++ ((sp.lineBreak depth).toList ++ [']'])))) :=
      fun depth => by simp [writeAt]
    refine ⟨fun depth => ⟨_, _, htext depth, by decide⟩, fun depth fuel rest hfuel _ => ?_⟩
    obtain ⟨fuel, rfl⟩ : ∃ n, fuel = n + 1 := ⟨fuel - 1, by omega⟩
    obtain ⟨c, cs, hitem, -, hc⟩ := (h item List.mem_cons_self).opens (depth + 1)
    have hitems := itemsFrom_writeItems (depth + 1) fuel rest hsp (hsp.lineBreak depth) h
      (by rw [htext] at hfuel; simp at hfuel ⊢; omega)
    rw [htext]
    simp only [List.cons_append, List.append_assoc, List.nil_append, value,
      (h item List.mem_cons_self).skip (depth + 1) (hsp.lineBreak (depth + 1))]
    rw [hitem, List.cons_append] at hitems ⊢
    simp [hc, hitems, bind, Except.bind, pure, Except.pure]

/-- The text of a member of an object. -/
def memberText (sp : Spacing) (depth : Nat) (p : String × Json) : List Char :=
  (sp.quote p.1).toList ++ (sp.colon.toList ++ (writeAt sp depth p.2).toList)

variable {p : String × Json}

/-- What is read up to the closing brace, once a member is read. -/
def afterMember (fuel : Nat) (p : String × Json) (rest : List Char) :
    Except ReadFault (List (String × Json) × List Char) :=
  match skip rest with
  | '\x7d' :: rest => pure ([p], rest)
  | ',' :: rest => do
    let (members, rest) ← membersFrom fuel (skip rest)
    pure (p :: members, rest)
  | _ => .error .malformed

theorem membersFrom_member (hsp : sp.Readable) (h : Reads sp p.2)
    (hfuel : (memberText sp depth p).length < fuel) (hrest : EndsNumber rest) :
    membersFrom (fuel + 1) (memberText sp depth p ++ rest) = afterMember fuel p rest := by
  obtain ⟨name, v⟩ := p
  obtain ⟨body, hquote, hbody⟩ := hsp.stringBody name
  obtain ⟨space, hspace, hcolon⟩ := hsp.colon
  dsimp only at h
  have hvalue := h.reads depth fuel rest
    (by simp only [memberText, List.length_append] at hfuel; omega) hrest
  rw [memberText, hquote, hcolon]
  simp only [List.cons_append, List.append_assoc, membersFrom, hbody]
  simp only [bind, Except.bind, skip_cons (c := ':') rfl, h.skip depth hspace, hvalue,
    String.ofList_toList]
  rfl

theorem skip_memberText (hsp : sp.Readable) (hgap : IsGap gap) :
    skip (gap ++ (memberText sp depth p ++ rest)) = memberText sp depth p ++ rest := by
  obtain ⟨body, hquote, -⟩ := hsp.stringBody p.1
  rw [memberText, hquote, List.cons_append, List.cons_append, skip_append hgap rfl]

theorem membersFrom_writeMembers (depth fuel : Nat) (rest : List Char) (hsp : sp.Readable)
    (hgap : IsGap gap)
    (h : ∀ q ∈ p :: members, Reads sp q.2)
    (hfuel : (memberText sp depth p ++ ((writeMembers sp depth members).toList ++
      gap)).length + 1 < fuel) :
    membersFrom fuel (memberText sp depth p ++ ((writeMembers sp depth members).toList ++
      (gap ++ '\x7d' :: rest))) = .ok (p :: members, rest) := by
  obtain ⟨fuel, rfl⟩ : ∃ n, fuel = n + 1 := ⟨fuel - 1, by omega⟩
  obtain ⟨hp, htail⟩ := List.forall_mem_cons.1 h
  have hfirst : (memberText sp depth p).length < fuel := by
    rw [List.length_append] at hfuel
    omega
  induction members generalizing p fuel with
  | nil =>
    rw [writeMembers, String.toList_empty, List.nil_append,
      membersFrom_member hsp hp hfirst (endsNumber_append hgap (.inr (.inr rfl))), afterMember,
      skip_append hgap rfl]
    rfl
  | cons next members ih =>
    -- the comma and the break behind it are passed over before the next member
    obtain ⟨space, hspace, hcomma⟩ := hsp.comma
    obtain ⟨hnext, hmore⟩ := List.forall_mem_cons.1 htail
    obtain ⟨fuel, rfl⟩ : ∃ n, fuel = n + 1 := ⟨fuel - 1, by omega⟩
    have htext : (writeMembers sp depth (next :: members)).toList = sp.comma.toList ++
        ((sp.lineBreak depth).toList ++ (memberText sp depth next ++
          (writeMembers sp depth members).toList)) := by
      simp [writeMembers, memberText]
    simp only [htext, List.append_assoc] at hfuel ⊢
    rw [membersFrom_member hsp hp hfirst hsp.endsNumber_comma, afterMember]
    rw [hcomma, List.cons_append] at hfuel ⊢
    have hlength : (memberText sp depth next ++ ((writeMembers sp depth members).toList ++
        gap)).length + 1 < fuel + 1 := by
      simp only [List.length_append, List.length_cons] at hfuel ⊢
      omega
    rw [skip_cons rfl]
    simp only [← List.append_assoc space]
    rw [skip_memberText hsp (hspace.append (hsp.lineBreak depth)), ih htail fuel hlength hnext hmore
      (by rw [List.length_append] at hlength; omega)]
    rfl

theorem reads_obj (hsp : sp.Readable) (hnodup : (Entries.keys members).Nodup)
    (h : ∀ p ∈ members, Reads sp p.2) : Reads sp (.obj members) := by
  cases members with
  | nil =>
    have htext : ∀ depth, (writeAt sp depth (.obj [])).toList = ['\x7b', '\x7d'] := fun _ => by
      rw [writeAt]
      rfl
    refine ⟨fun depth => ⟨_, _, htext depth, by decide⟩, fun depth fuel rest hfuel _ => ?_⟩
    obtain ⟨fuel, rfl⟩ : ∃ n, fuel = n + 1 := ⟨fuel - 1, by omega⟩
    rw [htext, List.cons_append, List.singleton_append, value, skip_cons rfl]
    rfl
  | cons p members =>
    have htext : ∀ depth, (writeAt sp depth (.obj (p :: members))).toList =
        '\x7b' :: ((sp.lineBreak (depth + 1)).toList ++ (memberText sp (depth + 1) p ++
          ((writeMembers sp (depth + 1) members).toList ++
            ((sp.lineBreak depth).toList ++ ['\x7d'])))) :=
      fun depth => by simp [writeAt, memberText]
    refine ⟨fun depth => ⟨_, _, htext depth, by decide⟩, fun depth fuel rest hfuel _ => ?_⟩
    obtain ⟨fuel, rfl⟩ : ∃ n, fuel = n + 1 := ⟨fuel - 1, by omega⟩
    have hmembers := membersFrom_writeMembers (depth + 1) fuel rest hsp (hsp.lineBreak depth) h
      (by rw [htext] at hfuel; simp at hfuel ⊢; omega)
    obtain ⟨body, hquote, -⟩ := hsp.stringBody p.1
    rw [htext]
    simp only [List.cons_append, List.append_assoc, List.nil_append, value,
      skip_memberText hsp (hsp.lineBreak (depth + 1))]
    rw [memberText, hquote] at hmembers ⊢
    simp only [List.cons_append, List.append_assoc] at hmembers ⊢
    show (membersFrom fuel _ >>= fun found =>
      pure (Json.obj (Entries.ofPairs found.1), found.2)) = _
    rw [hmembers]
    simp only [bind, Except.bind, pure, Except.pure, Entries.ofPairs_of_nodup hnodup]

/-! ## All values -/

theorem reads_of_isExact (hsp : sp.Readable) (hv : v.IsExact) : Reads sp v := by
  induction hv with
  | null => exact reads_null
  | bool b => exact reads_bool b
  | int hn => exact reads_int hn
  | str s => exact reads_str hsp s
  | arr _ ih => exact reads_arr hsp ih
  | obj hnodup _ ih => exact reads_obj hsp hnodup ih

/-- **A value is read back from what is written for it**, with white space
around it. -/
theorem read_writeAt (hsp : sp.Readable) (hv : v.IsExact) (depth : Nat) (hgap : IsGap gap) :
    read (String.ofList ((writeAt sp depth v).toList ++ gap)) = .ok v := by
  have hread := reads_of_isExact hsp hv
  have hskip : skip ((writeAt sp depth v).toList ++ gap) = (writeAt sp depth v).toList ++ gap :=
    hread.skip depth isGap_nil
  have hend : skip gap = [] := List.dropWhile_eq_nil_iff.2 hgap
  rw [read, String.toList_ofList, hskip,
    hread.reads _ _ _ (by simp only [List.length_append]; omega) hgap.endsNumber]
  simp [hend]

/-! ## The characters of a text -/

/-- Characters of lines: no control character but the end of a line. -/
def IsPrinted (cs : List Char) : Prop :=
  ∀ c ∈ cs, c = '\n' ∨ 32 ≤ c.toNat

@[simp] theorem isPrinted_nil : IsPrinted [] := by
  simp [IsPrinted]

@[simp] theorem isPrinted_append {cs ds : List Char} :
    IsPrinted (cs ++ ds) ↔ IsPrinted cs ∧ IsPrinted ds :=
  List.forall_mem_append

@[simp] theorem isPrinted_cons {c : Char} {cs : List Char} :
    IsPrinted (c :: cs) ↔ (c = '\n' ∨ 32 ≤ c.toNat) ∧ IsPrinted cs :=
  List.forall_mem_cons

theorem isPrinted_hexFixed (n : Nat) : IsPrinted (Text.hexFixed 4 n) := by
  have hdigit : ∀ m < 16, 32 ≤ (Text.hexDigit m).toNat := by decide
  have hmod : ∀ n, 32 ≤ (Text.hexDigit (n % 16)).toNat := fun n =>
    hdigit _ (Nat.mod_lt n (by decide))
  simp [Quoted.hexFixed_four, hmod]

theorem isPrinted_escapeAscii (c : Char) : IsPrinted (Text.escapeAscii c) := by
  unfold Text.escapeAscii
  split
  · next e he =>
    have hvisible := (Quoted.shortEscape?_eq_some he).1
    simp_all [Quoted.isVisible]
  · split
    · simp_all
    · split <;> simp [isPrinted_hexFixed]

theorem isPrinted_asciiQuoted (s : String) : IsPrinted (Text.asciiQuoted s).toList := by
  have hbody : IsPrinted (s.toList.flatMap Text.escapeAscii) := by
    intro c hc
    obtain ⟨d, -, hc⟩ := List.mem_flatMap.1 hc
    exact isPrinted_escapeAscii d c hc
  simp [Text.asciiQuoted, hbody]

theorem isPrinted_lineBreak (quote : String → String) (depth : Nat) :
    IsPrinted ((Spacing.indented quote).lineBreak depth).toList := by
  rw [toList_lineBreak_indented, isPrinted_cons]
  refine ⟨.inl rfl, fun c hc => .inr ?_⟩
  rw [List.eq_of_mem_replicate hc]
  decide

theorem isPrinted_toString (n : Int) : IsPrinted (toString n).toList := by
  have hdigits : ∀ n, IsPrinted (Nat.toDigits 10 n) := fun n c hc => by
    have hc : '0' ≤ c ∧ c ≤ '9' := by simpa [Number.isNumeral] using isNumeral_of_mem_toDigits hc
    exact .inr (Nat.le_trans (by decide : 32 ≤ '0'.toNat) hc.1)
  cases n with
  | ofNat n => rw [toList_ofNat]; exact hdigits n
  | negSucc n => rw [toList_negSucc, isPrinted_cons]; exact ⟨by decide, hdigits _⟩

theorem isPrinted_writeItems (items : List Json)
    (h : ∀ v ∈ items, IsPrinted (writeAt (.indented Text.asciiQuoted) depth v).toList) :
    IsPrinted (writeItems (.indented Text.asciiQuoted) depth items).toList := by
  induction items with
  | nil => rw [writeItems]; simp
  | cons item items ih =>
    obtain ⟨hitem, hitems⟩ := List.forall_mem_cons.1 h
    have hcomma : IsPrinted (Spacing.indented Text.asciiQuoted).comma.toList := by
      simp [Spacing.indented]
    rw [writeItems]
    simp only [String.toList_append, isPrinted_append]
    exact ⟨⟨⟨hcomma, isPrinted_lineBreak _ _⟩, hitem⟩, ih hitems⟩

theorem isPrinted_writeMembers (members : List (String × Json))
    (h : ∀ p ∈ members, IsPrinted (writeAt (.indented Text.asciiQuoted) depth p.2).toList) :
    IsPrinted (writeMembers (.indented Text.asciiQuoted) depth members).toList := by
  induction members with
  | nil => rw [writeMembers]; simp
  | cons p members ih =>
    obtain ⟨hp, hmembers⟩ := List.forall_mem_cons.1 h
    have hspaces : IsPrinted (Spacing.indented Text.asciiQuoted).comma.toList ∧
        IsPrinted (Spacing.indented Text.asciiQuoted).colon.toList := by
      simp [Spacing.indented]
    rw [writeMembers]
    simp only [String.toList_append, isPrinted_append]
    exact ⟨⟨⟨⟨⟨hspaces.1, isPrinted_lineBreak _ _⟩, isPrinted_asciiQuoted _⟩, hspaces.2⟩, hp⟩,
      ih hmembers⟩

/-- **A text has no control character but the ends of its lines.** -/
theorem isPrinted_writeAt (hv : v.IsExact) (depth : Nat) :
    IsPrinted (writeAt (.indented Text.asciiQuoted) depth v).toList := by
  induction hv generalizing depth with
  | null => rw [writeAt]; simp
  | bool b => cases b <;> rw [writeAt] <;> simp
  | int _ => rw [writeAt]; exact isPrinted_toString _
  | str s => rw [writeAt]; exact isPrinted_asciiQuoted s
  | @arr items _ ih =>
    cases items with
    | nil => rw [writeAt]; simp
    | cons item items =>
      have hitems := isPrinted_writeItems (item :: items) fun v hv => ih v hv (depth + 1)
      rw [writeItems] at hitems
      rw [writeAt]
      simp only [String.toList_append, isPrinted_append] at hitems ⊢
      simp [hitems, isPrinted_lineBreak]
  | @obj members _ _ ih =>
    cases members with
    | nil => rw [writeAt]; simp
    | cons p members =>
      have hmembers := isPrinted_writeMembers (p :: members) fun v hv =>
        ih v hv (depth + 1)
      rw [writeMembers] at hmembers
      rw [writeAt]
      simp only [String.toList_append, isPrinted_append] at hmembers ⊢
      simp [hmembers, isPrinted_lineBreak]

/-- The ends of lines are line feeds alone. -/
theorem not_mem_pretty (hv : v.IsExact) : '\r' ∉ v.pretty.toList := by
  intro h
  rcases isPrinted_writeAt hv 0 _ h with h | h
  · exact absurd h (by decide)
  · exact absurd h (by decide)

end Json

end ApiSnippets
