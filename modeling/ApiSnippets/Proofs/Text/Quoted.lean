import Mathlib.Data.List.Basic
import ApiSnippets.Json.Reader
import ApiSnippets.Text.Quoted
/-!
# Texts between quotes, read back

A token between quotes ends at the first quote that no backslash escapes
(`Quoted.token?`). What is written for a text is one such token, whatever
follows it, and the text is its value: by the escapes of JSON between double
quotes (`Quoted.double?_doubleQuoted`), and between single quotes where a
backslash escapes itself and the quote only (`Quoted.single?_singleQuoted`).
-/

namespace ApiSnippets

namespace Quoted

/-! ## Tokens -/

/-- What a token holds after its opening quote, and what follows its closing
quote. A backslash escapes the next character, and only some characters may
stand in a token at all. -/
def inside? (quote : Char) (allowed : Char → Bool) : List Char → Option (List Char × List Char)
  | [] => none
  | c :: cs =>
    if c = quote then some ([], cs)
    else if !allowed c then none
    else if c = '\\' then
      match cs with
      | [] => none
      | e :: cs =>
        if allowed e then
          (inside? quote allowed cs).map fun (inside, rest) => (c :: e :: inside, rest)
        else none
    else (inside? quote allowed cs).map fun (inside, rest) => (c :: inside, rest)

/-- The token at the start of the characters: what it holds, and what follows
it. -/
def token? (quote : Char) (allowed : Char → Bool) : List Char → Option (List Char × List Char)
  | [] => none
  | c :: cs => if c = quote then inside? quote allowed cs else none

variable {quote c e : Char} {allowed : Char → Bool} {cs ds rest : List Char}

/-- A piece of a token: reading goes on behind it, in the same token. -/
def Passes (quote : Char) (allowed : Char → Bool) (piece : List Char) : Prop :=
  ∀ rest, inside? quote allowed (piece ++ rest) =
    (inside? quote allowed rest).map fun (inside, rest) => (piece ++ inside, rest)

theorem passes_nil : Passes quote allowed [] := by
  intro rest
  simp

theorem Passes.append (hcs : Passes quote allowed cs) (hds : Passes quote allowed ds) :
    Passes quote allowed (cs ++ ds) := by
  intro rest
  rw [List.append_assoc, hcs, hds, Option.map_map]
  simp [Function.comp_def]

/-- A character without a meaning of its own. -/
theorem passes_plain (hquote : c ≠ quote) (hslash : c ≠ '\\') (hc : allowed c = true) :
    Passes quote allowed [c] := by
  intro rest
  rw [List.singleton_append, inside?.eq_def]
  simp [hquote, hslash, hc]

/-- A backslash with what it escapes, the quote included. -/
theorem passes_escape (hquote : quote ≠ '\\') (hslash : allowed '\\' = true)
    (hc : allowed c = true) : Passes quote allowed ['\\', c] := by
  intro rest
  rw [List.cons_append, List.singleton_append, inside?.eq_def]
  simp [hquote.symm, hslash, hc]

theorem passes_flatMap {f : Char → List Char} (hf : ∀ c, Passes quote allowed (f c)) :
    Passes quote allowed (cs.flatMap f) := by
  induction cs with
  | nil => exact passes_nil
  | cons c cs ih => exact (hf c).append ih

/-- **A piece between quotes is one token**, whatever follows. -/
theorem Passes.token? (h : Passes quote allowed cs) (rest : List Char) :
    token? quote allowed (quote :: cs ++ quote :: rest) = some (cs, rest) := by
  have hinside := h (quote :: rest)
  have hclose : inside? quote allowed (quote :: rest) = some ([], rest) := by
    rw [inside?.eq_def]
    simp
  simpa [Quoted.token?, hclose] using hinside

/-! ## Double quotes -/

/-- A character that may stand between double quotes: no control character,
and so no end of a line. -/
def isVisible (c : Char) : Bool :=
  decide (32 ≤ c.toNat)

/-- The text that JSON takes the inside of a token for. -/
def jsonValue? (inside : List Char) : Option (List Char) :=
  match Json.read (String.ofList ('"' :: inside ++ ['"'])) with
  | .ok (.str s) => some s.toList
  | _ => none

/-- The value of the token between double quotes at the start of the
characters, and what follows it. -/
def double? (cs : List Char) : Option (List Char × List Char) := do
  let (inside, rest) ← token? '"' isVisible cs
  let value ← jsonValue? inside
  pure (value, rest)

theorem hexFixed_four (n : Nat) : Text.hexFixed 4 n =
    [Text.hexDigit (n / 16 / 16 / 16 % 16), Text.hexDigit (n / 16 / 16 % 16),
      Text.hexDigit (n / 16 % 16), Text.hexDigit (n % 16)] := rfl

/-- The characters with a one-letter escape, each with its letter. -/
def shortEscapes : List (Char × Char) :=
  [('"', '"'), ('\\', '\\'), ('\n', 'n'), ('\r', 'r'), ('\t', 't'), (Char.ofNat 8, 'b'),
    (Char.ofNat 12, 'f')]

theorem shortEscape?_eq_lookup (c : Char) : Text.shortEscape? c = shortEscapes.lookup c := by
  have hcode : ∀ n, Char.toNat (Char.ofNat n) = n → (c.toNat = n ↔ c = Char.ofNat n) := by
    intro n hn
    refine ⟨?_, fun h => h ▸ hn⟩
    rintro rfl
    exact (Char.ofNat_toNat c).symm
  simp only [Text.shortEscape?, hcode 8 rfl, hcode 12 rfl, shortEscapes, List.lookup_cons,
    List.lookup_nil]
  clear hcode
  -- the first character of the list that is `c` decides on both sides
  repeat'
    split
    · next h => simp [h]
    rename_i h
    rw [beq_eq_false_iff_ne.2 h]

theorem mem_shortEscapes (h : Text.shortEscape? c = some e) : (c, e) ∈ shortEscapes := by
  rw [shortEscape?_eq_lookup] at h
  obtain ⟨front, rest, hsplit, -⟩ := List.lookup_eq_some_iff.1 h
  simp [hsplit]

theorem ne_of_shortEscape?_eq_none (h : Text.shortEscape? c = none) :
    ∀ p ∈ shortEscapes, c ≠ p.1 := by
  rw [shortEscape?_eq_lookup, List.lookup_eq_none_iff] at h
  simpa using h

/-- A one-letter escape is visible and stands for its character. -/
theorem shortEscape?_eq_some (h : Text.shortEscape? c = some e) :
    isVisible e = true ∧ e ≠ 'u' ∧ Json.Reader.unescape? e = some c := by
  have hall : ∀ p ∈ shortEscapes,
      isVisible p.2 = true ∧ p.2 ≠ 'u' ∧ Json.Reader.unescape? p.2 = some p.1 := by decide
  exact hall _ (mem_shortEscapes h)

theorem shortEscape?_eq_none (h : Text.shortEscape? c = none) : c ≠ '"' ∧ c ≠ '\\' :=
  ⟨ne_of_shortEscape?_eq_none h ('"', '"') (by decide),
    ne_of_shortEscape?_eq_none h ('\\', '\\') (by decide)⟩

theorem passes_hexDigit (n : Nat) : Passes '"' isVisible [Text.hexDigit (n % 16)] := by
  have hdigit : ∀ m < 16, Text.hexDigit m ≠ '"' ∧ Text.hexDigit m ≠ '\\' ∧
      isVisible (Text.hexDigit m) = true := by decide
  obtain ⟨hquote, hslash, hvisible⟩ := hdigit (n % 16) (Nat.mod_lt n (by omega))
  exact passes_plain hquote hslash hvisible

theorem passes_escapeDouble (c : Char) : Passes '"' isVisible (Text.escapeDouble c) := by
  unfold Text.escapeDouble
  split
  · next e he => exact passes_escape (by decide) rfl (shortEscape?_eq_some he).1
  · next hnone =>
    obtain ⟨hquote, hslash⟩ := shortEscape?_eq_none hnone
    split
    · rw [hexFixed_four]
      have hu : Passes '"' isVisible ['\\', 'u'] := passes_escape (by decide) rfl rfl
      exact (((hu.append (passes_hexDigit _)).append (passes_hexDigit _)).append
        (passes_hexDigit _)).append (passes_hexDigit _)
    · next hcontrol => exact passes_plain hquote hslash (by simpa [isVisible] using hcontrol)

theorem hexQuad_hexFixed {n : Nat} (hn : n < 65536) :
    ∃ w x y z, Text.hexFixed 4 n = [w, x, y, z] ∧ Json.Reader.hexQuad w x y z = some n := by
  have hdigit : ∀ m < 16, Text.hexValue? (Text.hexDigit m) = some m := by decide
  refine ⟨_, _, _, _, hexFixed_four n, ?_⟩
  simp only [Json.Reader.hexQuad, hdigit _ (Nat.mod_lt _ (by omega : 16 > 0)), Option.bind_eq_bind,
    Option.bind_some, Option.pure_def, Option.some.injEq]
  omega

/-- What is written for a character between double quotes is not empty, and a
reader of JSON takes it for that character, whatever follows. -/
structure Escapes (escape : Char → List Char) : Prop where
  nonempty : ∀ c, escape c ≠ []
  reads : ∀ fuel c rest, Json.Reader.stringBody (fuel + 1) (escape c ++ rest) =
    Json.Reader.stringBody.push fuel c rest

theorem stringBody_shortEscape (fuel : Nat) (h : Text.shortEscape? c = some e) :
    Json.Reader.stringBody (fuel + 1) ('\\' :: e :: rest) =
      Json.Reader.stringBody.push fuel c rest := by
  obtain ⟨-, hu, hvalue⟩ := shortEscape?_eq_some h
  simp [Json.Reader.stringBody, hu, hvalue]

/-- Four digits stand for the character of their value, unless that is half of
a pair. -/
theorem stringBody_hexFixed (fuel : Nat) (hc : c.toNat < 65536) :
    Json.Reader.stringBody (fuel + 1) ('\\' :: 'u' :: (Text.hexFixed 4 c.toNat ++ rest)) =
      Json.Reader.stringBody.push fuel c rest := by
  obtain ⟨w, x, y, z, hdigits, hquad⟩ := hexQuad_hexFixed hc
  have hvalid : c.toNat < 0xD800 ∨ 0xDFFF < c.toNat ∧ c.toNat < 0x110000 := c.valid
  have hhigh : ¬ (0xD800 ≤ c.toNat ∧ c.toNat < 0xDC00) := by omega
  have hlow : ¬ (0xDC00 ≤ c.toNat ∧ c.toNat < 0xE000) := by omega
  simp [Json.Reader.stringBody, hdigits, hquad, hhigh, hlow]

theorem stringBody_plain (fuel : Nat) (hquote : c ≠ '"') (hslash : c ≠ '\\')
    (hc : 32 ≤ c.toNat) :
    Json.Reader.stringBody (fuel + 1) (c :: rest) = Json.Reader.stringBody.push fuel c rest := by
  rw [Json.Reader.stringBody.eq_def]
  simp [hquote, hslash, Nat.not_lt.2 hc]

theorem escapes_escapeDouble : Escapes Text.escapeDouble where
  nonempty c := by
    unfold Text.escapeDouble
    split
    · simp
    · split <;> simp
  reads fuel c rest := by
    unfold Text.escapeDouble
    split
    · next e he => exact stringBody_shortEscape fuel he
    · next hnone =>
      obtain ⟨hquote, hslash⟩ := shortEscape?_eq_none hnone
      split
      · exact stringBody_hexFixed fuel (by omega)
      · exact stringBody_plain fuel hquote hslash (by omega)

/-- A character beyond sixteen bits is read from the two halves that are
written for it. -/
theorem stringBody_halves (fuel : Nat) (hc : 0x10000 ≤ c.toNat) :
    Json.Reader.stringBody (fuel + 1)
        ('\\' :: 'u' :: (Text.hexFixed 4 (0xD800 + (c.toNat - 0x10000) / 0x400) ++
          '\\' :: 'u' :: (Text.hexFixed 4 (0xDC00 + (c.toNat - 0x10000) % 0x400) ++ rest))) =
      Json.Reader.stringBody.push fuel c rest := by
  have hvalid : c.toNat < 0xD800 ∨ 0xDFFF < c.toNat ∧ c.toNat < 0x110000 := c.valid
  obtain ⟨high, hhigh⟩ : ∃ n, n = (c.toNat - 0x10000) / 0x400 := ⟨_, rfl⟩
  obtain ⟨low, hlow⟩ : ∃ n, n = (c.toNat - 0x10000) % 0x400 := ⟨_, rfl⟩
  have hvalue : 0x10000 + high * 0x400 + low = c.toNat := by omega
  have hchar : Char.ofNat (0x10000 + high * 0x400 + low) = c := by rw [hvalue, Char.ofNat_toNat]
  rw [← hhigh, ← hlow]
  obtain ⟨w, x, y, z, hdigits, hquad⟩ := hexQuad_hexFixed (n := 0xD800 + high) (by omega)
  obtain ⟨w', x', y', z', hdigits', hquad'⟩ := hexQuad_hexFixed (n := 0xDC00 + low) (by omega)
  have hfirst : 0xD800 + high < 0xDC00 := by omega
  have hsecond : 0xDC00 + low < 0xE000 := by omega
  simp [Json.Reader.stringBody, Json.Reader.lowHalf?, hdigits, hquad, hdigits', hquad', hfirst,
    hsecond, hchar]

theorem escapes_escapeAscii : Escapes Text.escapeAscii where
  nonempty c := by
    unfold Text.escapeAscii
    split
    · simp
    · split
      · simp
      · split <;> simp
  reads fuel c rest := by
    unfold Text.escapeAscii
    split
    · next e he => exact stringBody_shortEscape fuel he
    · next hnone =>
      obtain ⟨hquote, hslash⟩ := shortEscape?_eq_none hnone
      split
      · next hplain => exact stringBody_plain fuel hquote hslash hplain.1
      · split
        · next hshort => exact stringBody_hexFixed fuel hshort
        · next hlong => simpa using stringBody_halves fuel (Nat.not_lt.1 hlong)

theorem Escapes.stringBody {escape : Char → List Char} (he : Escapes escape) {fuel : Nat}
    (h : cs.length < fuel) :
    Json.Reader.stringBody fuel (cs.flatMap escape ++ '"' :: rest) = .ok (cs, rest) := by
  -- an escape of any length takes one unit of fuel
  induction cs generalizing fuel with
  | nil =>
    obtain ⟨fuel, rfl⟩ : ∃ n, fuel = n + 1 := ⟨fuel - 1, by simp at h; omega⟩
    rw [List.flatMap_nil, List.nil_append, Json.Reader.stringBody.eq_def]
    simp
  | cons c cs ih =>
    obtain ⟨fuel, rfl⟩ : ∃ n, fuel = n + 1 := ⟨fuel - 1, by simp at h; omega⟩
    have hfuel : cs.length < fuel := by simpa using h
    have hrest := ih hfuel
    rw [List.flatMap_cons, List.append_assoc, he.reads, Json.Reader.stringBody.push, hrest]
    rfl

theorem Escapes.length_le {escape : Char → List Char} (he : Escapes escape) (cs : List Char) :
    cs.length ≤ (cs.flatMap escape).length := by
  induction cs with
  | nil => simp
  | cons c cs ih =>
    have hc := List.length_pos_iff.2 (he.nonempty c)
    rw [List.flatMap_cons, List.length_append, List.length_cons]
    omega

/-- **A reader of JSON undoes the escapes** of a text between quotes, whatever
follows. -/
theorem Escapes.body {escape : Char → List Char} (he : Escapes escape) (cs rest : List Char) :
    Json.Reader.stringBody ((cs.flatMap escape ++ '"' :: rest).length + 1)
      (cs.flatMap escape ++ '"' :: rest) = .ok (cs, rest) := by
  have hlength := he.length_le cs
  refine he.stringBody ?_
  rw [List.length_append]
  omega

theorem asciiQuoted_injective : Function.Injective Text.asciiQuoted := by
  intro s t h
  have htext := congrArg String.toList h
  rw [Text.asciiQuoted, Text.asciiQuoted, String.toList_ofList, String.toList_ofList] at htext
  have hbody : s.toList.flatMap Text.escapeAscii ++ ['"'] =
      t.toList.flatMap Text.escapeAscii ++ ['"'] := (List.cons.inj htext).2
  have hs := escapes_escapeAscii.body s.toList []
  rw [hbody, escapes_escapeAscii.body t.toList []] at hs
  exact String.toList_inj.1 (Prod.mk.inj (Except.ok.inj hs)).1.symm

/-- **A reader of JSON undoes the quotes and the escapes.** -/
theorem read_doubleQuoted (s : String) : Json.read (Text.doubleQuoted s) = .ok (.str s) := by
  have htext : (Text.doubleQuoted s).toList =
      '"' :: (s.toList.flatMap Text.escapeDouble ++ ['"']) := by
    rw [Text.doubleQuoted, String.toList_ofList, Text.doubleQuotedChars, List.cons_append]
  have hvalue : ∀ fuel, Json.Reader.value (fuel + 1)
      ('"' :: (s.toList.flatMap Text.escapeDouble ++ ['"'])) = .ok (.str s, []) := by
    intro fuel
    rw [Json.Reader.value, escapes_escapeDouble.body]
    simp only [bind, Except.bind, pure, Except.pure, String.ofList_toList]
  have hskip : ∀ cs, Json.Reader.skip ('"' :: cs) = '"' :: cs := fun _ => rfl
  rw [Json.read, htext, hskip, hvalue]
  rfl

theorem double?_doubleQuoted (s : String) (rest : List Char) :
    double? ((Text.doubleQuoted s).toList ++ rest) = some (s.toList, rest) := by
  have htoken : token? '"' isVisible ((Text.doubleQuoted s).toList ++ rest) =
      some (s.toList.flatMap Text.escapeDouble, rest) := by
    have hpasses : Passes '"' isVisible (s.toList.flatMap Text.escapeDouble) :=
      passes_flatMap passes_escapeDouble
    rw [Text.doubleQuoted, String.toList_ofList, Text.doubleQuotedChars]
    simpa using hpasses.token? rest
  have hvalue : jsonValue? (s.toList.flatMap Text.escapeDouble) = some s.toList := by
    have hread := read_doubleQuoted s
    rw [Text.doubleQuoted, Text.doubleQuotedChars] at hread
    rw [jsonValue?, hread]
  rw [double?, htoken]
  simp only [Option.bind_eq_bind, Option.bind_some, hvalue, Option.pure_def]

/-! ## Single quotes -/

/-- The text that the inside of a token between single quotes stands for: a
backslash escapes itself and the quote, and stands for itself elsewhere. -/
def singleValue : List Char → List Char
  | [] => []
  | [c] => [c]
  | c :: d :: cs =>
    if c = '\\' ∧ (d = '\\' ∨ d = '\'') then d :: singleValue cs
    else c :: singleValue (d :: cs)

/-- The value of the token between single quotes at the start of the
characters, and what follows it. -/
def single? (cs : List Char) : Option (List Char × List Char) :=
  (token? '\'' (fun _ => true) cs).map fun (inside, rest) => (singleValue inside, rest)

theorem passes_escapeSingle (c : Char) : Passes '\'' (fun _ => true) (Text.escapeSingle c) := by
  unfold Text.escapeSingle
  split
  · exact passes_escape (by decide) rfl rfl
  · next hplain =>
    obtain ⟨hslash, hquote⟩ := not_or.1 hplain
    exact passes_plain hquote hslash rfl

theorem singleValue_flatMap (cs : List Char) :
    singleValue (cs.flatMap Text.escapeSingle) = cs := by
  induction cs with
  | nil => rfl
  | cons c cs ih =>
    rw [List.flatMap_cons]
    by_cases hc : c = '\\' ∨ c = '\''
    · have hescape : Text.escapeSingle c = ['\\', c] := by simp [Text.escapeSingle, hc]
      simp [hescape, singleValue, hc, ih]
    · have hplain : Text.escapeSingle c = [c] := by simp [Text.escapeSingle, hc]
      -- a character that is no backslash escapes nothing
      have hslash : c ≠ '\\' := (not_or.1 hc).1
      rw [hplain, List.singleton_append]
      cases hrest : cs.flatMap Text.escapeSingle with
      | nil => simpa [singleValue, hrest] using ih
      | cons d ds =>
        rw [hrest] at ih
        simp [singleValue, hslash, ih]

theorem single?_singleQuoted (s : String) (rest : List Char) :
    single? ((Text.singleQuoted s).toList ++ rest) = some (s.toList, rest) := by
  have hpasses : Passes '\'' (fun _ => true) (s.toList.flatMap Text.escapeSingle) :=
    passes_flatMap passes_escapeSingle
  have htoken : token? '\'' (fun _ => true) ((Text.singleQuoted s).toList ++ rest) =
      some (s.toList.flatMap Text.escapeSingle, rest) := by
    rw [Text.singleQuoted, String.toList_ofList]
    simpa using hpasses.token? rest
  rw [single?, htoken]
  simp only [Option.map_some, singleValue_flatMap]

end Quoted

end ApiSnippets
