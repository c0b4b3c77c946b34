import ApiSnippets.Json.Reader
/-!
# Strings within JSON texts

In a text that is read as a JSON value, a backslash stands within a string, and
a control character between strings. The scanner here knows strings and escapes
and nothing else, and it stops at a character out of its place. Whatever the
reader takes from a text, the scanner passes over (`scan?_of_value`), so it
comes to the end of each text that is read (`scan?_of_read`).
-/

namespace ApiSnippets

namespace Json

namespace Strings

open Reader

/-! ## The scanner -/

/-- Where a character stands. -/
inductive Place where
  | between
  | string
  /-- Behind the backslash of an escape. -/
  | escape
  deriving DecidableEq, Repr

/-- The place behind a character, none when the character may not stand there. -/
def step? : Place → Char → Option Place
  | .between, c =>
    if c = '"' then some .string else if c = '\\' then none else some .between
  | .string, c =>
    if c = '"' then some .between
    else if c = '\\' then some .escape
    else if c.toNat < 32 then none
    else some .string
  | .escape, c => if c.toNat < 32 then none else some .string

/-- The place behind these characters. -/
def scan? (p : Place) : List Char → Option Place
  | [] => some p
  | c :: cs => (step? p c).bind fun q => scan? q cs

variable {p q : Place} {c d : Char} {cs ds rest : List Char}

theorem scan?_cons (h : step? p c = some q) : scan? p (c :: cs) = scan? q cs := by
  rw [scan?, h]
  rfl

theorem scan?_append : scan? p (cs ++ ds) = (scan? p cs).bind fun q => scan? q ds := by
  induction cs generalizing p with
  | nil => rfl
  | cons c cs ih =>
    rw [List.cons_append, scan?, scan?]
    cases step? p c with
    | none => rfl
    | some q => exact ih

/-! ## Between strings -/

/-- A character that neither opens a string nor is out of its place. -/
def isPlain (c : Char) : Bool :=
  c != '"' && c != '\\'

theorem step?_of_isPlain (h : isPlain c = true) : step? .between c = some .between := by
  obtain ⟨hquote, hslash⟩ : c ≠ '"' ∧ c ≠ '\\' := by simpa [isPlain] using h
  rw [step?, if_neg hquote, if_neg hslash]

/-- A run of plain characters is passed over. -/
theorem scan?_dropWhile {f : Char → Bool} (hf : ∀ c, f c = true → isPlain c = true) :
    scan? .between (cs.dropWhile f) = scan? .between cs := by
  induction cs with
  | nil => rfl
  | cons c cs ih =>
    by_cases hc : f c = true
    · rw [List.dropWhile_cons_of_pos hc, scan?_cons (step?_of_isPlain (hf c hc)), ih]
    · rw [List.dropWhile_cons_of_neg hc]

theorem isPlain_of_isGap (h : isGap c = true) : isPlain c = true := by
  simp only [isGap, Bool.or_eq_true, beq_iff_eq] at h
  rcases h with ((rfl | rfl) | rfl) | rfl <;> rfl

theorem scan?_skip : scan? .between (skip cs) = scan? .between cs :=
  scan?_dropWhile fun _ => isPlain_of_isGap

theorem isPlain_of_isNumeral (h : Number.isNumeral c = true) : isPlain c = true := by
  have hne : ∀ d, Number.isNumeral d = false → c ≠ d := by
    rintro d hd rfl
    rw [h] at hd
    cases hd
  simp [isPlain, hne '"' (by decide), hne '\\' (by decide)]

theorem scan?_numerals : scan? .between (cs.dropWhile Number.isNumeral) = scan? .between cs :=
  scan?_dropWhile fun _ => isPlain_of_isNumeral

/-! ## Numbers and words -/

theorem scan?_of_after? {word : List Char} (hword : ∀ c ∈ word, isPlain c = true)
    (h : after? word cs = some rest) : scan? .between cs = scan? .between rest := by
  induction word generalizing cs with
  | nil =>
    obtain rfl := Option.some.inj h
    rfl
  | cons w word ih =>
    obtain ⟨hw, hword⟩ := List.forall_mem_cons.1 hword
    cases cs with
    | nil => cases h
    | cons c cs =>
      rw [after?] at h
      split at h
      · next hc =>
        subst hc
        rw [scan?_cons (step?_of_isPlain hw), ih hword h]
      · cases h

theorem scan?_of_word? {v : Json} (h : word? cs = some (v, rest)) :
    scan? .between cs = scan? .between rest := by
  have hplain : ∀ entry ∈ wordTable, ∀ c ∈ entry.1.toList, isPlain c = true := by
    intro entry hentry
    simp only [wordTable, List.mem_cons, List.not_mem_nil, or_false] at hentry
    rcases hentry with rfl | rfl | rfl | rfl | rfl | rfl <;> exact List.all_eq_true.1 (by decide)
  obtain ⟨entry, hentry, hafter⟩ := List.exists_of_findSome?_eq_some h
  obtain ⟨rest', hrest, heq⟩ := Option.map_eq_some_iff.1 hafter
  obtain ⟨-, rfl⟩ := Prod.mk.inj heq
  exact scan?_of_after? (hplain entry hentry) hrest

theorem scan?_of_wholePart {digits : List Char} (h : wholePart cs = some (digits, rest)) :
    scan? .between cs = scan? .between rest := by
  unfold wholePart at h
  split at h
  · obtain ⟨-, rfl⟩ := Prod.mk.inj (Option.some.inj h)
    exact scan?_cons rfl
  · split at h
    · next hc =>
      obtain ⟨-, rfl⟩ := Prod.mk.inj (Option.some.inj h)
      rw [scan?_numerals, scan?_cons (step?_of_isPlain (isPlain_of_isNumeral hc))]
    · cases h
  · cases h

theorem scan?_of_fraction? {digits : List Char} (h : fraction? cs = some (digits, rest)) :
    scan? .between cs = scan? .between rest := by
  unfold fraction? at h
  split at h
  · rw [scan?_cons rfl]
    dsimp only at h
    split at h
    · cases h
    · obtain ⟨-, rfl⟩ := Prod.mk.inj (Option.some.inj h)
      exact scan?_numerals.symm
  · cases h

theorem scan?_splitSign : scan? .between (Number.splitSign cs).2 = scan? .between cs := by
  unfold Number.splitSign
  split
  · exact (scan?_cons rfl).symm
  · exact (scan?_cons rfl).symm
  · rfl

theorem scan?_of_exponent? {n : Int} (h : exponent? cs = some (n, rest)) :
    scan? .between cs = scan? .between rest := by
  unfold exponent? at h
  split at h
  · next e cs =>
    split at h
    · next he =>
      have hplain : isPlain e = true := by rcases he with rfl | rfl <;> rfl
      rw [scan?_cons (step?_of_isPlain hplain), ← scan?_splitSign]
      dsimp only at h
      split at h
      · cases h
      · obtain ⟨-, rfl⟩ := Prod.mk.inj (Option.some.inj h)
        exact scan?_numerals.symm
    · cases h
  · cases h

theorem scan?_of_numeral {negative : Bool} {v : Json}
    (h : numeral negative cs = .ok (v, rest)) : scan? .between cs = scan? .between rest := by
  unfold numeral at h
  split at h
  · cases h
  · next whole rest' hwhole =>
    rw [scan?_of_wholePart hwhole]
    have hfraction : scan? .between rest' =
        scan? .between ((fraction? rest').getD ([], rest')).2 := by
      cases hf : fraction? rest' with
      | none => rfl
      | some found => exact scan?_of_fraction? hf
    rw [hfraction]
    dsimp only at h
    split at h
    · next hexponent =>
      obtain ⟨-, rfl⟩ := Prod.mk.inj (Except.ok.inj h)
      exact scan?_of_exponent? hexponent
    · split at h
      · obtain ⟨-, rfl⟩ := Prod.mk.inj (Except.ok.inj h)
        rfl
      · split at h
        · cases h
        · obtain ⟨-, rfl⟩ := Prod.mk.inj (Except.ok.inj h)
          rfl

theorem scan?_of_scalar {v : Json} (h : scalar cs = .ok (v, rest)) :
    scan? .between cs = scan? .between rest := by
  unfold scalar at h
  split at h
  · next found hword =>
    obtain rfl := Except.ok.inj h
    exact scan?_of_word? hword
  · split at h
    · rw [scan?_cons rfl]
      exact scan?_of_numeral h
    · exact scan?_of_numeral h

/-! ## Strings -/

theorem step?_string (hquote : c ≠ '"') (hslash : c ≠ '\\') (hc : ¬ c.toNat < 32) :
    step? .string c = some .string := by
  rw [step?, if_neg hquote, if_neg hslash, if_neg hc]

theorem step?_of_hexValue? {n : Nat} (h : Text.hexValue? c = some n) :
    step? .string c = some .string := by
  have hvisible : ¬ c.toNat < 32 := by
    intro hc
    have hnone : ∀ n < 32, Text.hexValue? (Char.ofNat n) = none := by decide
    have hcontra := hnone c.toNat hc
    rw [Char.ofNat_toNat, h] at hcontra
    cases hcontra
  have hne : ∀ d, Text.hexValue? d = none → c ≠ d := by
    rintro d hd rfl
    rw [h] at hd
    cases hd
  exact step?_string (hne '"' (by decide)) (hne '\\' (by decide)) hvisible

theorem scan?_of_hexQuad {a b : Char} {n : Nat} (h : hexQuad a b c d = some n) :
    scan? .string (a :: b :: c :: d :: cs) = scan? .string cs := by
  simp only [hexQuad, Option.bind_eq_bind, Option.bind_eq_some_iff] at h
  obtain ⟨_, ha, _, hb, _, hc, _, hd, -⟩ := h
  rw [scan?_cons (step?_of_hexValue? ha), scan?_cons (step?_of_hexValue? hb),
    scan?_cons (step?_of_hexValue? hc), scan?_cons (step?_of_hexValue? hd)]

theorem scan?_of_lowHalf? {n : Nat} (h : lowHalf? cs = some (n, rest)) :
    scan? .string cs = scan? .string rest := by
  unfold lowHalf? at h
  split at h
  · split at h
    · next hquad =>
      split at h
      · obtain ⟨-, rfl⟩ := Prod.mk.inj (Option.some.inj h)
        exact scan?_of_hexQuad hquad
      · cases h
    · cases h
  · cases h

theorem step?_of_unescape? {u : Char} (h : unescape? c = some u) :
    step? .escape c = some .string := by
  have hvisible : ¬ c.toNat < 32 := by
    intro hc
    have hnone : ∀ n < 32, unescape? (Char.ofNat n) = none := by decide
    have hcontra := hnone c.toNat hc
    rw [Char.ofNat_toNat, h] at hcontra
    cases hcontra
  rw [step?, if_neg hvisible]

theorem bind_eq_ok {α β : Type} {x : Except ReadFault α} {f : α → Except ReadFault β} {b : β} :
    (x >>= f) = .ok b ↔ ∃ a, x = .ok a ∧ f a = .ok b := by
  cases x <;> simp [bind, Except.bind]

theorem scan?_of_push {fuel : Nat} {body : List Char}
    (ih : ∀ {cs body rest}, stringBody fuel cs = .ok (body, rest) →
      scan? .string cs = scan? .between rest)
    (h : stringBody.push fuel c cs = .ok (body, rest)) :
    scan? .string cs = scan? .between rest := by
  unfold stringBody.push at h
  obtain ⟨found, hbody, hpush⟩ := bind_eq_ok.1 h
  obtain ⟨-, rfl⟩ := Prod.mk.inj (Except.ok.inj hpush)
  exact ih hbody

/-- A string is passed over, with its quotes. -/
theorem scan?_of_stringBody {fuel : Nat} {body : List Char}
    (h : stringBody fuel cs = .ok (body, rest)) : scan? .string cs = scan? .between rest := by
  induction fuel generalizing cs body rest with
  | zero =>
    rw [stringBody.eq_def] at h
    cases h
  | succ fuel ih =>
    rw [stringBody.eq_def] at h
    split at h
    · cases h
    · cases h
    · next fuel' c cs hfuel =>
      obtain rfl := Nat.succ.inj hfuel
      split at h
      · next hquote =>
        obtain ⟨-, rfl⟩ := Prod.mk.inj (Except.ok.inj h)
        exact scan?_cons (by rw [step?, if_pos hquote])
      · next hquote =>
        split at h
        · next hslash =>
          -- an escape is a backslash, its letter and at most four or ten more characters
          rw [scan?_cons (q := .escape) (by rw [step?, if_neg hquote, if_pos hslash])]
          split at h
          · rw [scan?_cons (q := .string) rfl]
            split at h
            · cases h
            · next hquad =>
              rw [scan?_of_hexQuad hquad]
              split at h
              · split at h
                · next hlow =>
                  rw [scan?_of_lowHalf? hlow]
                  exact scan?_of_push ih h
                · exact scan?_of_push ih h
              · split at h
                · exact scan?_of_push ih h
                · exact scan?_of_push ih h
          · split at h
            · next hescape =>
              rw [scan?_cons (step?_of_unescape? hescape)]
              exact scan?_of_push ih h
            · cases h
          · cases h
        · next hslash =>
          split at h
          · cases h
          · next hvisible =>
            rw [scan?_cons (step?_string hquote hslash hvisible)]
            exact scan?_of_push ih h

/-! ## Values -/

/-- What the reader of values takes, alone or as a list, is passed over. -/
structure Passes (fuel : Nat) : Prop where
  value : ∀ {cs v rest}, value fuel cs = .ok (v, rest) → scan? .between cs = scan? .between rest
  items : ∀ {cs vs rest}, itemsFrom fuel cs = .ok (vs, rest) →
    scan? .between cs = scan? .between rest
  members : ∀ {cs ms rest}, membersFrom fuel cs = .ok (ms, rest) →
    scan? .between cs = scan? .between rest

theorem Passes.value_succ {fuel : Nat} (h : Passes fuel) {v : Json}
    (hv : Reader.value (fuel + 1) cs = .ok (v, rest)) :
    scan? .between cs = scan? .between rest := by
  rw [Reader.value.eq_def] at hv
  dsimp only at hv
  split at hv
  · obtain ⟨⟨body, rest'⟩, hbody, hpure⟩ := bind_eq_ok.1 hv
    obtain ⟨-, rfl⟩ := Prod.mk.inj (Except.ok.inj hpure)
    rw [scan?_cons (q := .string) rfl, scan?_of_stringBody hbody]
  · rw [scan?_cons (q := .between) rfl, ← scan?_skip]
    split at hv
    · next hskip =>
      obtain ⟨-, rfl⟩ := Prod.mk.inj (Except.ok.inj hv)
      rw [hskip, scan?_cons rfl]
    · obtain ⟨⟨items, rest'⟩, hitems, hpure⟩ := bind_eq_ok.1 hv
      obtain ⟨-, rfl⟩ := Prod.mk.inj (Except.ok.inj hpure)
      exact h.items hitems
  · rw [scan?_cons (q := .between) rfl, ← scan?_skip]
    split at hv
    · next hskip =>
      obtain ⟨-, rfl⟩ := Prod.mk.inj (Except.ok.inj hv)
      rw [hskip, scan?_cons rfl]
    · obtain ⟨⟨members, rest'⟩, hmembers, hpure⟩ := bind_eq_ok.1 hv
      obtain ⟨-, rfl⟩ := Prod.mk.inj (Except.ok.inj hpure)
      exact h.members hmembers
  · exact scan?_of_scalar hv

theorem Passes.items_succ {fuel : Nat} (h : Passes fuel) {vs : List Json}
    (hvs : itemsFrom (fuel + 1) cs = .ok (vs, rest)) :
    scan? .between cs = scan? .between rest := by
  rw [itemsFrom] at hvs
  obtain ⟨⟨item, behind⟩, hitem, hmore⟩ := bind_eq_ok.1 hvs
  rw [h.value hitem, ← scan?_skip]
  dsimp only at hmore
  split at hmore
  · next hskip =>
    obtain ⟨-, rfl⟩ := Prod.mk.inj (Except.ok.inj hmore)
    rw [hskip, scan?_cons rfl]
  · next hskip =>
    obtain ⟨⟨items, rest'⟩, hitems, hpure⟩ := bind_eq_ok.1 hmore
    obtain ⟨-, rfl⟩ := Prod.mk.inj (Except.ok.inj hpure)
    rw [hskip, scan?_cons (q := .between) rfl, ← scan?_skip, h.items hitems]
  · cases hmore

theorem Passes.members_succ {fuel : Nat} (h : Passes fuel) {ms : List (String × Json)}
    (hms : membersFrom (fuel + 1) cs = .ok (ms, rest)) :
    scan? .between cs = scan? .between rest := by
  rw [membersFrom.eq_def] at hms
  dsimp only at hms
  split at hms
  · obtain ⟨⟨name, behind⟩, hname, hcolon⟩ := bind_eq_ok.1 hms
    rw [scan?_cons (q := .string) rfl, scan?_of_stringBody hname, ← scan?_skip]
    dsimp only at hcolon
    split at hcolon
    · next hskip =>
      obtain ⟨⟨v, behind'⟩, hvalue, hmore⟩ := bind_eq_ok.1 hcolon
      rw [hskip, scan?_cons (q := .between) rfl, ← scan?_skip, h.value hvalue, ← scan?_skip]
      dsimp only at hmore
      split at hmore
      · next hskip' =>
        obtain ⟨-, rfl⟩ := Prod.mk.inj (Except.ok.inj hmore)
        rw [hskip', scan?_cons rfl]
      · next hskip' =>
        obtain ⟨⟨members, rest'⟩, hmembers, hpure⟩ := bind_eq_ok.1 hmore
        obtain ⟨-, rfl⟩ := Prod.mk.inj (Except.ok.inj hpure)
        rw [hskip', scan?_cons (q := .between) rfl, ← scan?_skip, h.members hmembers]
      · cases hmore
    · cases hcolon
  · cases hms

/-- **What the reader takes, the scanner passes over**, by the same recursion. -/
theorem passes (fuel : Nat) : Passes fuel := by
  induction fuel with
  | zero => exact ⟨nofun, nofun, nofun⟩
  | succ fuel ih => exact ⟨ih.value_succ, ih.items_succ, ih.members_succ⟩

/-- **A text that is read has each character in its place.** -/
theorem scan?_of_read {s : String} {v : Json} (h : Json.read s = .ok v) :
    scan? .between s.toList = some .between := by
  unfold Json.read at h
  dsimp only at h
  split at h
  · cases h
  · next rest hvalue =>
    split at h
    · next hrest =>
      rw [← scan?_skip, (passes _).value hvalue, ← scan?_skip, List.isEmpty_iff.1 hrest]
      rfl
    · cases h

end Strings

end Json

end ApiSnippets
