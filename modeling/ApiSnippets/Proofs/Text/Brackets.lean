import Mathlib.Data.List.Basic
import ApiSnippets.Proofs.Text.Quoted
/-!
# Brackets

A reader of code that counts round, square and curly brackets and passes over
texts between double quotes, in which a backslash escapes the next character.
It keeps the brackets that are still open, and stops at one that closes
nothing or something else. A piece of code takes the reader from some open
brackets to others (`Piece`), and pieces can be put one after the other. One
that closes all it opens is inline (`Inline`), and so is every quoted text,
whatever it holds (`inline_doubleQuoted`).
-/

namespace ApiSnippets

namespace Brackets

/-! ## The reader -/

/-- What the next character belongs to. -/
inductive Mode where
  | code
  | text
  /-- The character after a backslash of a text. -/
  | escaped
  deriving DecidableEq, Repr

/-- Where a reader stands: in code or in a text, and the characters that close
the open brackets, the innermost first. -/
structure Reader where
  mode : Mode
  opened : List Char
  deriving DecidableEq, Repr

/-- What a character does in code. -/
inductive Sign where
  | quote
  /-- It opens a bracket that the given character closes. -/
  | opening (close : Char)
  | closing
  | none
  deriving DecidableEq, Repr

/-- The sign that a character is. -/
def signOf (c : Char) : Sign :=
  if c = '"' then .quote
  else if c = '(' then .opening ')'
  else if c = '[' then .opening ']'
  else if c = '\x7b' then .opening '\x7d'
  else if c = ')' ∨ c = ']' ∨ c = '\x7d' then .closing
  else .none

/-- The reader in code after one more character. -/
def stepCode? (opened : List Char) (c : Char) : Option Reader :=
  match signOf c with
  | .quote => some ⟨.text, opened⟩
  | .opening close => some ⟨.code, close :: opened⟩
  | .closing =>
    match opened with
    | [] => none
    | close :: outer => if close = c then some ⟨.code, outer⟩ else none
  | .none => some ⟨.code, opened⟩

/-- The reader after one more character, none at a bracket that is closed and
not open. -/
def step? (r : Reader) (c : Char) : Option Reader :=
  match r.mode with
  | .code => stepCode? r.opened c
  | .text =>
    if c = '"' then some ⟨.code, r.opened⟩
    else if c = '\\' then some ⟨.escaped, r.opened⟩
    else some r
  | .escaped => some ⟨.text, r.opened⟩

/-- The reader after a text. -/
def read? (r : Reader) : List Char → Option Reader
  | [] => some r
  | c :: cs => (step? r c).bind fun r => read? r cs

variable {r r' : Reader} {S T U : List Char} {c o : Char} {cs ds : List Char}

@[simp] theorem read?_nil : read? r [] = some r := rfl

theorem read?_cons : read? r (c :: cs) = (step? r c).bind fun r => read? r cs := rfl

theorem read?_append : read? r (cs ++ ds) = (read? r cs).bind fun r => read? r ds := by
  induction cs generalizing r with
  | nil => rfl
  | cons c cs ih =>
    rw [List.cons_append, read?_cons, read?_cons, Option.bind_assoc]
    exact congrArg _ (funext fun r => ih)

theorem read?_append_of_eq_some (h : read? r cs = some r') : read? r (cs ++ ds) = read? r' ds := by
  rw [read?_append, h, Option.bind_some]

/-- A reader with further brackets open outside of those it knows. -/
def Reader.within (outer : List Char) (r : Reader) : Reader :=
  ⟨r.mode, r.opened ++ outer⟩

theorem step?_within (h : step? r c = some r') : step? (r.within S) c = some (r'.within S) := by
  obtain ⟨mode, opened⟩ := r
  cases mode with
  | code =>
    simp only [step?, Reader.within, stepCode?] at h ⊢
    cases hsign : signOf c with
    | closing =>
      -- the bracket that is closed is one the reader knows
      cases opened with
      | nil => simp [hsign] at h
      | cons close outer =>
        by_cases hclose : close = c
        · simp only [hsign, hclose, if_true] at h
          cases h
          simp [hclose]
        · simp [hsign, hclose] at h
    | quote | opening _ | none =>
      simp only [hsign] at h ⊢
      cases h
      rfl
  | text =>
    simp only [step?, Reader.within] at h ⊢
    split_ifs at h ⊢ <;> cases h <;> rfl
  | escaped =>
    cases h
    rfl

/-- **What is open outside does not matter** to a reader that never comes upon
it. -/
theorem read?_within (h : read? r cs = some r') : read? (r.within S) cs = some (r'.within S) := by
  induction cs generalizing r with
  | nil =>
    cases h
    rfl
  | cons c cs ih =>
    obtain ⟨q, hq, h⟩ := Option.bind_eq_some_iff.1 h
    rw [read?_cons, step?_within hq]
    exact ih h

/-! ## Pieces of code -/

/-- A piece of code within a line, the brackets that are open before it and
those that are open after it. -/
structure Piece (opened : List Char) (s : String) (after : List Char) : Prop where
  read : read? ⟨.code, opened⟩ s.toList = some ⟨.code, after⟩
  line : ∀ c ∈ s.toList, c ≠ '\t' ∧ c ≠ '\n'

instance (s : String) : Decidable (Piece S s T) :=
  decidable_of_iff (read? ⟨.code, S⟩ s.toList = some ⟨.code, T⟩ ∧
      s.toList.all (fun c => c != '\t' && c != '\n') = true)
    ⟨fun h => ⟨h.1, by simpa using h.2⟩, fun h => ⟨h.1, by simpa using h.2⟩⟩

/-- A piece that closes all it opens. -/
abbrev Inline (s : String) : Prop :=
  Piece [] s []

variable {s t : String}

theorem Piece.append (hs : Piece S s T) (ht : Piece T t U) : Piece S (s ++ t) U where
  read := by rw [String.toList_append, read?_append_of_eq_some hs.read, ht.read]
  line := by
    rw [String.toList_append]
    exact List.forall_mem_append.2 ⟨hs.line, ht.line⟩

theorem inline_empty : Inline "" := by decide

theorem Piece.within (h : Piece S s T) (outer : List Char) : Piece (S ++ outer) s (T ++ outer) :=
  ⟨read?_within h.read, h.line⟩

/-- A piece inside of the brackets that another one opens. -/
theorem Inline.between (h : Inline s) {a b : String} (S : List Char) (ha : Piece [] a S)
    (hb : Piece S b []) : Inline (a ++ s ++ b) :=
  (ha.append (h.within S)).append hb

/-- Where no bracket is open, a piece does not begin with one that closes. -/
theorem Piece.signOf_head (h : Piece [] s T) (hs : s.toList = c :: cs) : signOf c ≠ .closing := by
  intro hc
  have hread := h.read
  simp [hs, read?_cons, step?, stepCode?, hc] at hread

/-- A character without a meaning to the reader, neither a tab nor a line
feed. -/
def isPlain (c : Char) : Bool :=
  signOf c == .none && c != '\t' && c != '\n'

theorem step?_of_signOf_none (h : signOf c = .none) : step? ⟨.code, S⟩ c = some ⟨.code, S⟩ := by
  simp [step?, stepCode?, h]

theorem inline_of_isPlain (h : ∀ c ∈ s.toList, isPlain c = true) : Inline s := by
  simp only [isPlain, Bool.and_eq_true, beq_iff_eq, bne_iff_ne, ne_eq] at h
  refine ⟨?_, fun c hc => ⟨(h c hc).1.2, (h c hc).2⟩⟩
  generalize s.toList = cs at h ⊢
  induction cs with
  | nil => rfl
  | cons c cs ih =>
    obtain ⟨hc, hcs⟩ := List.forall_mem_cons.1 h
    rw [read?_cons, step?_of_signOf_none hc.1.1]
    exact ih hcs

/-! ## Quoted texts -/

/-- A piece of a text between quotes: it ends in the text, and holds neither
tabs nor line feeds. -/
structure Quotable (cs : List Char) : Prop where
  stays : ∀ S, read? ⟨.text, S⟩ cs = some ⟨.text, S⟩
  line : ∀ c ∈ cs, c ≠ '\t' ∧ c ≠ '\n'

theorem Quotable.append (hcs : Quotable cs) (hds : Quotable ds) : Quotable (cs ++ ds) where
  stays S := by rw [read?_append_of_eq_some (hcs.stays S), hds.stays]
  line := List.forall_mem_append.2 ⟨hcs.line, hds.line⟩

theorem quotable_of_forall (h : ∀ c ∈ cs, c ∉ ['"', '\\', '\t', '\n']) : Quotable cs := by
  refine ⟨fun S => ?_, fun c hc => ?_⟩
  · induction cs with
    | nil => rfl
    | cons c cs ih =>
      obtain ⟨hc, hcs⟩ := List.forall_mem_cons.1 h
      simp only [List.mem_cons, not_or] at hc
      rw [read?_cons]
      simpa [step?, hc] using ih hcs
  · have hmarks := h c hc
    simp only [List.mem_cons, not_or] at hmarks
    exact ⟨hmarks.2.2.1, hmarks.2.2.2.1⟩

/-- A backslash with what it escapes. -/
theorem quotable_escape (h : c ≠ '\t' ∧ c ≠ '\n') : Quotable ['\\', c] :=
  ⟨fun _ => rfl, by simpa using h⟩

theorem mem_hexFixed {width n : Nat} (h : c ∈ Text.hexFixed width n) :
    c ∉ ['"', '\\', '\t', '\n'] := by
  have hdigit : ∀ m < 16, Text.hexDigit m ∉ ['"', '\\', '\t', '\n'] := by decide
  induction width generalizing n with
  | zero => simp [Text.hexFixed] at h
  | succ width ih =>
    rcases List.mem_append.1 h with h | h
    · exact ih h
    · obtain rfl := List.mem_singleton.1 h
      exact hdigit _ (Nat.mod_lt _ (by omega))

/-- A one-letter escape is neither a tab nor a line feed. -/
theorem line_shortEscape (h : Text.shortEscape? c = some o) : o ≠ '\t' ∧ o ≠ '\n' := by
  have hall : ∀ p ∈ Quoted.shortEscapes, p.2 ≠ '\t' ∧ p.2 ≠ '\n' := by decide
  exact hall _ (Quoted.mem_shortEscapes h)

/-- What is not escaped has no meaning in a text. -/
theorem not_mem_of_no_escape (h : Text.shortEscape? c = none) : c ∉ ['"', '\\', '\t', '\n'] := by
  have hall : ∀ d ∈ ['"', '\\', '\t', '\n'], d ∈ Quoted.shortEscapes.map Prod.fst := by
    simp [Quoted.shortEscapes]
  intro hc
  obtain ⟨p, hp, hpc⟩ := List.mem_map.1 (hall c hc)
  exact Quoted.ne_of_shortEscape?_eq_none h p hp hpc.symm

theorem quotable_escapeDouble (c : Char) : Quotable (Text.escapeDouble c) := by
  unfold Text.escapeDouble
  split
  · next e he => exact quotable_escape (line_shortEscape he)
  · next hnone =>
    split
    · have hdigits : Quotable (Text.hexFixed 4 c.toNat) :=
        quotable_of_forall fun d hd => mem_hexFixed hd
      exact (quotable_escape (by decide)).append hdigits
    · exact quotable_of_forall (by simpa using not_mem_of_no_escape hnone)

/-- **A quoted text is inline**, whatever it holds. -/
theorem inline_doubleQuoted (s : String) : Inline (Text.doubleQuoted s) := by
  have hinner : Quotable (s.toList.flatMap Text.escapeDouble) := by
    induction s.toList with
    | nil => exact quotable_of_forall (by simp)
    | cons c cs ih => exact (quotable_escapeDouble c).append ih
  have htext : (Text.doubleQuoted s).toList =
      '"' :: (s.toList.flatMap Text.escapeDouble ++ ['"']) := by
    rw [Text.doubleQuoted, String.toList_ofList, Text.doubleQuotedChars, List.cons_append]
  refine ⟨?_, ?_⟩ <;> rw [htext]
  · show read? ⟨.text, []⟩ (s.toList.flatMap Text.escapeDouble ++ ['"']) = _
    rw [read?_append_of_eq_some (hinner.stays [])]
    rfl
  · have hquote : ∀ d ∈ ['"'], d ≠ '\t' ∧ d ≠ '\n' := by simp
    exact List.forall_mem_cons.2 ⟨by decide, List.forall_mem_append.2 ⟨hinner.line, hquote⟩⟩

end Brackets

end ApiSnippets
