import ApiSnippets.Proofs.Text.Cut
import ApiSnippets.Text.Quoted
/-!
# Words of a shell

How a shell reads a word of a command: what stands between single quotes is
taken as it is, between double quotes a backslash escapes a few characters, and
outside of quotes it escapes every one and joins lines. A character with any
other meaning outside of quotes is no part of a word here, so what is read has
one meaning only. What is written as a word is read as that word
(`Shell.word?_shellWord`).
-/

namespace ApiSnippets

namespace Shell

/-- What the next character belongs to. -/
inductive Mode where
  | bare
  /-- The character after a backslash outside of quotes. -/
  | escaped
  | single
  | double
  /-- The character after a backslash between double quotes. -/
  | doubleEscaped
  deriving DecidableEq, Repr

/-- What a character does: it ends the word, or puts characters behind it. -/
inductive Step where
  | ends
  | reads (put : List Char) (next : Mode)
  deriving DecidableEq, Repr

/-- White space between words, and the end of a command. -/
def isBlank (c : Char) : Bool :=
  c == ' ' || c == '\t' || c == '\n'

/-- A character outside of quotes that stands for more than itself: it is an
operator, or starts an expansion or a comment. -/
def isSpecial (c : Char) : Bool :=
  "|&;<>()$`*?[#~!\x7b\x7d".toList.contains c

/-- What a character does where a backslash before it has been read between
double quotes. -/
def stepDoubleEscaped (c : Char) : Step :=
  if c = '\n' then .reads [] .double
  else if "$`\"\\".toList.contains c then .reads [c] .double
  else .reads ['\\', c] .double

/-- What the next character does, none when it stands for more than itself. -/
def step? : Mode → Char → Option Step
  | .bare, c =>
    if isBlank c then some .ends
    else if c = '\'' then some (.reads [] .single)
    else if c = '"' then some (.reads [] .double)
    else if c = '\\' then some (.reads [] .escaped)
    else if isSpecial c then none
    else some (.reads [c] .bare)
  | .escaped, c => some (.reads (if c = '\n' then [] else [c]) .bare)
  | .single, c => some (if c = '\'' then .reads [] .bare else .reads [c] .single)
  | .double, c =>
    if c = '"' then some (.reads [] .bare)
    else if c = '\\' then some (.reads [] .doubleEscaped)
    else if "$`".toList.contains c then none
    else some (.reads [c] .double)
  | .doubleEscaped, c => some (stepDoubleEscaped c)

/-- The rest of a word and what follows it. No quote may be left open. -/
def wordFrom? (m : Mode) : List Char → Option (List Char × List Char)
  | [] => if m = .bare then some ([], []) else none
  | c :: cs =>
    match step? m c with
    | none => none
    | some .ends => some ([], c :: cs)
    | some (.reads put next) =>
      (wordFrom? next cs).map fun (word, rest) => (put ++ word, rest)

/-- **The word at the start of the characters**, and what follows it. -/
def word? : List Char → Option (List Char × List Char)
  | [] => none
  | c :: cs => if isBlank c then none else wordFrom? .bare (c :: cs)

/-- That a word ends where these characters begin. -/
def Ends (cs : List Char) : Prop :=
  ∀ c ∈ cs.head?, isBlank c = true

variable {m m' m'' : Mode} {c : Char} {cs ds word word' rest : List Char}

/-! ## Pieces of words -/

/-- A piece of a word, what it puts into the word, and how reading goes on. -/
def Reads (m : Mode) (cs word : List Char) (m' : Mode) : Prop :=
  ∀ rest, wordFrom? m (cs ++ rest) =
    (wordFrom? m' rest).map fun (more, rest) => (word ++ more, rest)

theorem reads_nil : Reads m [] [] m := by
  intro rest
  simp

theorem reads_char (h : step? m c = some (.reads word m')) : Reads m [c] word m' := by
  intro rest
  simp [wordFrom?, h]

theorem Reads.append (hcs : Reads m cs word m') (hds : Reads m' ds word' m'') :
    Reads m (cs ++ ds) (word ++ word') m'' := by
  intro rest
  rw [List.append_assoc, hcs, hds, Option.map_map]
  simp [Function.comp_def]

/-- **A piece that takes no quote with it is a whole word** where a word may
end. -/
theorem Reads.wordFrom? (h : Reads .bare cs word .bare) (hrest : Ends rest) :
    wordFrom? .bare (cs ++ rest) = some (word, rest) := by
  have hends : Shell.wordFrom? .bare rest = some ([], rest) := by
    cases rest with
    | nil => rfl
    | cons c rest =>
      have hblank : isBlank c = true := hrest c rfl
      simp [Shell.wordFrom?, step?, hblank]
  rw [h, hends]
  simp

/-! ## Words as they are written -/

theorem ne_of_isShellSafe {d : Char} (h : Text.isShellSafe c = true)
    (hd : Text.isShellSafe d = false) : c ≠ d := by
  rintro rfl
  simp [h] at hd

theorem isBlank_of_isShellSafe (h : Text.isShellSafe c = true) : isBlank c = false := by
  simp [isBlank, ne_of_isShellSafe h (d := ' ') (by decide),
    ne_of_isShellSafe h (d := '\t') (by decide), ne_of_isShellSafe h (d := '\n') (by decide)]

/-- A safe character stands for itself. -/
theorem step?_of_isShellSafe (h : Text.isShellSafe c = true) :
    step? .bare c = some (.reads [c] .bare) := by
  have hspecial : isSpecial c = false := by
    have hmeaning : ("|&;<>()$`*?[#~!\x7b\x7d".toList.all fun d => !Text.isShellSafe d) = true := by
      decide
    refine Bool.eq_false_iff.2 fun hc => ?_
    have hother := List.all_eq_true.1 hmeaning c (List.contains_iff_mem.1 hc)
    simp [h] at hother
  have hsingle : c ≠ '\'' := ne_of_isShellSafe h (by decide)
  have hdouble : c ≠ '"' := ne_of_isShellSafe h (by decide)
  have hslash : c ≠ '\\' := ne_of_isShellSafe h (by decide)
  simp [step?, isBlank_of_isShellSafe h, hspecial, hsingle, hdouble, hslash]

theorem reads_of_isShellSafe (h : cs.all Text.isShellSafe = true) : Reads .bare cs cs .bare := by
  induction cs with
  | nil => exact reads_nil
  | cons c cs ih =>
    obtain ⟨hc, hcs⟩ := Bool.and_eq_true_iff.1 h
    exact (reads_char (step?_of_isShellSafe hc)).append (ih hcs)

/-- Between single quotes a quote is written as an excursion: the quotes are
closed, the quote stands between double quotes, and they are opened again. -/
theorem reads_excursion : Reads .single "'\"'\"'".toList ['\''] .single := by
  have hclose : Reads .single ['\''] [] .bare := reads_char rfl
  have hopen : Reads .bare ['"'] [] .double := reads_char rfl
  have hquote : Reads .double ['\''] ['\''] .double := reads_char rfl
  have hback : Reads .double ['"'] [] .bare := reads_char rfl
  have hagain : Reads .bare ['\''] [] .single := reads_char rfl
  exact (((hclose.append hopen).append hquote).append hback).append hagain

theorem reads_replaceChar (cs : List Char) :
    Reads .single (Text.replaceChar '\'' "'\"'\"'".toList cs) cs .single := by
  induction cs with
  | nil => exact reads_nil
  | cons c cs ih =>
    by_cases hc : c = '\''
    · subst hc
      -- the excursion leaves and comes back between the same quotes
      rw [Text.replaceChar_cons_self]
      exact reads_excursion.append ih
    · rw [Text.replaceChar_cons_of_ne hc]
      have hstep : step? .single c = some (.reads [c] .single) := by simp [step?, hc]
      exact (reads_char hstep).append ih

theorem reads_shellWord (s : String) : Reads .bare (Text.shellWord s).toList s.toList .bare := by
  have hopen : Reads .bare ['\''] [] .single := reads_char rfl
  have hclose : Reads .single ['\''] [] .bare := reads_char rfl
  unfold Text.shellWord
  split
  · next hempty =>
    obtain rfl : s = "" := String.isEmpty_iff.1 hempty
    exact hopen.append hclose
  · split
    · next hsafe => exact reads_of_isShellSafe hsafe
    · rw [String.toList_ofList]
      simpa using (hopen.append (reads_replaceChar s.toList)).append hclose

/-- What is written as a word does not begin with white space. -/
theorem exists_shellWord_eq_cons (s : String) :
    ∃ c cs, (Text.shellWord s).toList = c :: cs ∧ isBlank c = false := by
  unfold Text.shellWord
  split
  · exact ⟨'\'', ['\''], rfl, rfl⟩
  · next hempty =>
    split
    · next hsafe =>
      cases hcs : s.toList with
      | nil => exact absurd (String.toList_inj.1 hcs) (by simpa [String.isEmpty_iff] using hempty)
      | cons c cs =>
        rw [hcs] at hsafe
        obtain ⟨hc, -⟩ := Bool.and_eq_true_iff.1 hsafe
        exact ⟨c, cs, rfl, isBlank_of_isShellSafe hc⟩
    · rw [String.toList_ofList]
      exact ⟨'\'', _, List.cons_append, rfl⟩

/-- **What is written as a word is read as that word**, where a word may end. -/
theorem word?_shellWord (s : String) (hrest : Ends rest) :
    word? ((Text.shellWord s).toList ++ rest) = some (s.toList, rest) := by
  have hword := (reads_shellWord s).wordFrom? hrest
  obtain ⟨c, cs, htext, hblank⟩ := exists_shellWord_eq_cons s
  rw [htext, List.cons_append] at hword ⊢
  simpa [word?, hblank] using hword

end Shell

end ApiSnippets
