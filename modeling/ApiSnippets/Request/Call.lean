import ApiSnippets.Entries
import ApiSnippets.Text.Cut
import ApiSnippets.Text.Case
/-!
# Call segments

A segment such as `getSchedule(start='2024',count=3)`: a name and arguments.
An argument is a word, an equals sign and a value; the value is a quoted text,
in which a quote is written twice, or everything up to the next comma. Values
stay as they are written until `unquote` reads them.
-/

namespace ApiSnippets

/-- A name and the written values of its arguments. -/
structure Call where
  name : String
  arguments : Entries String String
  deriving Repr

namespace Call

/-! ## Values -/

/-- The rest of a quoted text up to its closing quote, and what follows. Two
quotes in a row belong to the text, unless nothing closes it later. -/
def closeQuote : List Char → Option (List Char × List Char)
  | [] => none
  | ['\''] => some (['\''], [])
  | '\'' :: '\'' :: cs =>
    match closeQuote cs with
    | some (text, rest) => some ('\'' :: '\'' :: text, rest)
    | none => some (['\''], '\'' :: cs)
  | '\'' :: cs => some (['\''], cs)
  | c :: cs => (closeQuote cs).map fun (text, rest) => (c :: text, rest)

/-- The characters up to the next comma, and what follows. -/
def upToComma (cs : List Char) : List Char × List Char :=
  (cs.takeWhile (· != ','), cs.dropWhile (· != ','))

/-- A written value and what follows. -/
def takeValue (cs : List Char) : List Char × List Char :=
  match cs with
  | '\'' :: more =>
    match closeQuote more with
    | some (text, rest) => ('\'' :: text, rest)
    | none => upToComma cs
  | _ => upToComma cs

/-- The text of a written value: without the quotes around it, doubled quotes
read as one. -/
def unquoteChars (raw : List Char) : List Char :=
  match Text.strip raw with
  | '\'' :: more =>
    match more.reverse with
    | '\'' :: inner => Text.replacePair '\'' '\'' ['\''] inner.reverse
    | _ => '\'' :: more
  | cs => cs

/-- The text of a written value. -/
def unquote (raw : String) : String :=
  String.ofList (unquoteChars raw.toList)

/-! ## Arguments -/

/-- What follows the equals sign after an argument's name. -/
def afterEquals? (cs : List Char) : Option (List Char) :=
  match cs.dropWhile Text.isBlank with
  | '=' :: rest => some (rest.dropWhile Text.isBlank)
  | _ => none

theorem closeQuote_length {cs text rest : List Char} (h : closeQuote cs = some (text, rest)) :
    rest.length ≤ cs.length := by
  induction cs using closeQuote.induct generalizing text rest with
  | case1 => simp [closeQuote] at h
  | case2 => simp [closeQuote] at h; simp [← h.2]
  | case3 cs t r hr ih =>
    simp [closeQuote, hr] at h
    have := ih hr
    simp [← h.2]; omega
  | case4 cs hr ih => simp [closeQuote, hr] at h; simp [← h.2]
  | case5 cs h1 h2 =>
    cases cs with
    | nil => exact absurd rfl h1
    | cons c cs =>
      by_cases hc : c = '\''
      · subst hc; exact absurd rfl (h2 cs)
      · simp [closeQuote] at h; simp [← h.2]
  | case6 c cs h1 h2 h3 ih =>
    simp only [closeQuote, Option.map_eq_some_iff] at h
    obtain ⟨⟨t, r⟩, hr, he⟩ := h
    have := ih hr
    simp at he
    simp [← he.2]; omega

theorem upToComma_length (cs : List Char) : (upToComma cs).2.length ≤ cs.length :=
  (List.dropWhile_suffix _).length_le

theorem takeValue_length (cs : List Char) : (takeValue cs).2.length ≤ cs.length := by
  unfold takeValue
  split
  · split
    · next h => have := closeQuote_length h; simp; omega
    · exact upToComma_length _
  · exact upToComma_length _

theorem afterEquals?_length {cs rest : List Char} (h : afterEquals? cs = some rest) :
    rest.length < cs.length := by
  unfold afterEquals? at h
  split at h
  · next r hr =>
    have h1 := (List.dropWhile_suffix (l := cs) Text.isBlank).length_le
    have h2 := (List.dropWhile_suffix (l := r) Text.isBlank).length_le
    simp only [Option.some.injEq] at h
    rw [hr] at h1
    subst h
    simp at h1
    omega
  · simp at h

/-- The arguments found in the characters between the parentheses, from left
to right. What is no argument is passed over. -/
def scan (cs : List Char) : List (List Char × List Char) :=
  match cs with
  | [] => []
  | c :: rest =>
    if Text.isWord c then
      match _h : afterEquals? ((c :: rest).dropWhile Text.isWord) with
      | some value =>
        ((c :: rest).takeWhile Text.isWord, Text.strip (takeValue value).1) ::
          scan (takeValue value).2
      | none => scan rest
    else scan rest
termination_by cs.length
decreasing_by
  · have h1 := afterEquals?_length ‹_›
    have h2 := takeValue_length value
    have h3 := (List.dropWhile_suffix (l := c :: rest) Text.isWord).length_le
    omega
  · simp
  · simp

/-- The arguments as entries: one that repeats keeps its place and takes the
last value. -/
def argumentsOf (cs : List Char) : Entries String String :=
  Entries.ofPairs ((scan cs).map fun (n, v) => (String.ofList n, String.ofList v))

/-! ## Segments -/

/-- The parts of a segment. One that does not end in a closing parenthesis
is a name without arguments. -/
def ofChars (cs : List Char) : Call :=
  match cs.reverse with
  | ')' :: _ =>
    match Text.cutAt '(' cs with
    | (name, some inner) => ⟨String.ofList name, argumentsOf inner.dropLast⟩
    | (_, none) => ⟨String.ofList cs, []⟩
  | _ => ⟨String.ofList cs, []⟩

/-- The parts of a segment. -/
def ofSegment (segment : String) : Call :=
  ofChars segment.toList

/-- The written value of an argument, whatever the case of its name. -/
def argument? (args : Entries String String) (name : String) : Option String :=
  (args.find? fun (k, _) => Text.sameLetters k name).map Prod.snd

end Call

end ApiSnippets
