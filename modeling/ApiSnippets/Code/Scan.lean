import ApiSnippets.Naming
import ApiSnippets.Text.Cut
/-!
# Names in code

The class names that a written snippet constructs or calls into, found in its
text alone, and the names of request builders in it. A constructor is a
capitalised name after `new`, or after an opening bracket, a comma or an
equals sign, that is followed by a bracket or a dot.
-/

namespace ApiSnippets

namespace Scan

/-- An ASCII letter or digit. -/
def isNameChar (c : Char) : Bool :=
  Naming.isWordChar c

/-- A character that may come before a name. -/
def isOpener (c : Char) : Bool :=
  c == '=' || c == ',' || c == '(' || c == '['

/-- A character that may come after a name. -/
def isFollower (c : Char) : Bool :=
  c == '(' || c == '\x7b' || c == '.'

/-- What follows the beginning of a constructor: `new` as a word of its own
and white space, or an opener. -/
def afterStart? (inWord : Bool) : List Char → Option (List Char)
  | 'n' :: 'e' :: 'w' :: c :: cs =>
    if !inWord && Text.isBlank c then some (cs.dropWhile Text.isBlank) else none
  | c :: cs => if isOpener c then some (cs.dropWhile Text.isBlank) else none
  | [] => none

/-- A capitalised name with what follows it, and the rest. -/
def constructor? (cs : List Char) : Option (List Char × List Char) :=
  if cs.head?.any Naming.isUpper then
    match (cs.dropWhile isNameChar).dropWhile Text.isBlank with
    | c :: rest => if isFollower c then some (cs.takeWhile isNameChar, rest) else none
    | [] => none
  else none

theorem afterStart?_length {w : Bool} {cs rest : List Char} (h : afterStart? w cs = some rest) :
    rest.length < cs.length := by
  have hd (l : List Char) := (List.dropWhile_suffix (l := l) Text.isBlank).length_le
  unfold afterStart? at h
  split at h
  · next c r =>
    split at h
    · have := hd r
      simp only [Option.some.injEq] at h
      subst h
      simp only [List.length_cons]
      omega
    · simp at h
  · next c r _ =>
    split at h
    · have := hd r
      simp only [Option.some.injEq] at h
      subst h
      simp only [List.length_cons]
      omega
    · simp at h
  · simp at h

theorem constructor?_length {cs name rest : List Char} (h : constructor? cs = some (name, rest)) :
    rest.length < cs.length := by
  unfold constructor? at h
  split at h
  · split at h
    · next c r hr =>
      split at h
      · have h1 := (List.dropWhile_suffix (l := cs) isNameChar).length_le
        have h2 := (List.dropWhile_suffix (l := cs.dropWhile isNameChar) Text.isBlank).length_le
        rw [hr] at h2
        simp only [Option.some.injEq, Prod.mk.injEq] at h
        obtain ⟨-, rfl⟩ := h
        simp only [List.length_cons] at h2
        omega
      · simp at h
    · simp at h
  · simp at h

/-- The names of the constructors in a text, from left to right. -/
def constructors (inWord : Bool) (cs : List Char) : List (List Char) :=
  match cs with
  | [] => []
  | c :: rest =>
    match _h : afterStart? inWord (c :: rest) with
    | some after =>
      match _h' : constructor? after with
      | some (name, rest') => name :: constructors false rest'
      | none => constructors (Text.isWord c) rest
    | none => constructors (Text.isWord c) rest
termination_by cs.length
decreasing_by
  · have h1 := afterStart?_length ‹_›
    have h2 := constructor?_length ‹_›
    omega
  · simp
  · simp

/-- The ending of builder names. -/
def builderEnding : String := "RequestBuilder"

/-- The name of a builder at the beginning of a text. -/
def builder? (cs : List Char) : Option (List Char) :=
  let name := cs.takeWhile isNameChar
  let after := cs.dropWhile isNameChar
  if cs.head?.any Naming.isUpper && !(after.head?.any Text.isWord) &&
      builderEnding.toList.isSuffixOf name && decide (builderEnding.length < name.length) then
    some name
  else none

/-- The names of the builders in a text, from left to right. -/
def builders : Bool → List Char → List (List Char)
  | _, [] => []
  | inWord, c :: cs =>
    (if inWord then none else builder? (c :: cs)).toList ++ builders (Text.isWord c) cs

/-! ## Names of types -/

/-- Names that belong to the languages and not to the API. -/
def runtimeNames : List String :=
  ["Base64", "Buffer", "Convert", "Date", "DateTime", "DateTimeOffset", "Duration", "EnumSet",
    "Guid", "HashMap", "LinkedList", "LocalDate", "LocalTime", "MemoryStream", "OffsetDateTime",
    "PeriodAndDuration", "RequestConfiguration", "Time", "TimeSpan", "UUID"]

/-- How the names of the other generated types end. -/
def helperEndings : List String :=
  ["RequestConfiguration", "QueryParameters", builderEnding]

/-- Whether a name is that of a model. -/
def isModelName (name : String) : Bool :=
  !runtimeNames.contains name && !helperEndings.any fun ending => Text.hasEnd ending name

/-- The names of models in a text, each once. -/
def typeNames (text : String) : List String :=
  (((constructors false text.toList).map String.ofList).filter isModelName).eraseDups

/-- The names of builders in a text, each once. -/
def builderNames (text : String) : List String :=
  ((builders false text.toList).map String.ofList).eraseDups

end Scan

end ApiSnippets
