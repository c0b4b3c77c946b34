import ApiSnippets.Proofs.Json
import ApiSnippets.Proofs.Json.Strings
import ApiSnippets.Proofs.Text.Shell
import ApiSnippets.Target.CommandLine
/-!
# The body of a command

The text of a body is written between single quotes, with its quotes brought
out of them and a backslash before each line break. A shell reads that as one
word, and the word holds the backslashes: between single quotes they join no
lines. So a body reaches the command as it is exactly when it has one line, and
a JSON text of more lines reaches it as none (`CommandLine.continued_reads`).
-/

namespace ApiSnippets

namespace CommandLine

variable {cs rest : List Char} {s : String}

/-- What a command gets of a text that is written with continued lines. -/
def passed (s : String) : String :=
  String.ofList (Text.replaceChar '\n' ['\\', '\n'] s.toList)

/-- A text without its line breaks. -/
def unbroken (s : String) : String :=
  String.ofList (s.toList.filter (· ≠ '\n'))

/-! ## The word -/

/-- A quote is brought out of the quotes behind a backslash. -/
theorem reads_escapedQuote : Shell.Reads .single "'\\''".toList ['\''] .single := by
  have hclose : Shell.Reads .single ['\''] [] .bare := Shell.reads_char rfl
  have hslash : Shell.Reads .bare ['\\'] [] .escaped := Shell.reads_char rfl
  have hquote : Shell.Reads .escaped ['\''] ['\''] .bare := Shell.reads_char rfl
  have hopen : Shell.Reads .bare ['\''] [] .single := Shell.reads_char rfl
  exact ((hclose.append hslash).append hquote).append hopen

/-- Between single quotes a backslash before a line break is one character, and
the line break is another. -/
theorem reads_continuation : Shell.Reads .single ['\\', '\n'] ['\\', '\n'] .single := by
  have hslash : Shell.Reads .single ['\\'] ['\\'] .single := Shell.reads_char rfl
  have hbreak : Shell.Reads .single ['\n'] ['\n'] .single := Shell.reads_char rfl
  exact hslash.append hbreak

theorem reads_continuedChars (cs : List Char) :
    Shell.Reads .bare (continuedChars cs) (Text.replaceChar '\n' ['\\', '\n'] cs) .bare := by
  have hopen : Shell.Reads .bare ['\''] [] .single := Shell.reads_char rfl
  have hclose : Shell.Reads .single ['\''] [] .bare := Shell.reads_char rfl
  have hinside : Shell.Reads .single (cs.flatMap fun c =>
      if c = '\'' then ['\'', '\\', '\'', '\''] else if c = '\n' then ['\\', '\n'] else [c])
      (Text.replaceChar '\n' ['\\', '\n'] cs) .single := by
    induction cs with
    | nil => exact Shell.reads_nil
    | cons c cs ih =>
      rw [List.flatMap_cons]
      by_cases hquote : c = '\''
      · subst hquote
        rw [Text.replaceChar_cons_of_ne (by decide)]
        exact reads_escapedQuote.append ih
      · rw [if_neg hquote]
        by_cases hbreak : c = '\n'
        · subst hbreak
          rw [Text.replaceChar_cons_self]
          exact reads_continuation.append ih
        · rw [if_neg hbreak, Text.replaceChar_cons_of_ne hbreak]
          have hplain : Shell.step? .single c = some (.reads [c] .single) := by
            simp [Shell.step?, hquote]
          exact (Shell.reads_char hplain).append ih
  simpa [continuedChars] using (hopen.append hinside).append hclose

/-- **A continued text is read as one word**, where a word may end. -/
theorem word?_continued (s : String) (hrest : Shell.Ends rest) :
    Shell.word? ((continued s).toList ++ rest) = some ((passed s).toList, rest) := by
  have hword := (reads_continuedChars s.toList).wordFrom? hrest
  have hquoted : ∃ more, continuedChars s.toList = '\'' :: more :=
    ⟨_, by rw [continuedChars, List.append_assoc, List.singleton_append]⟩
  obtain ⟨more, hmore⟩ := hquoted
  rw [continued, passed, String.toList_ofList, String.toList_ofList]
  rw [hmore, List.cons_append] at hword ⊢
  exact hword

/-! ## What is passed -/

theorem passed_of_not_mem (h : '\n' ∉ s.toList) : passed s = s := by
  rw [passed, Text.replaceChar_of_not_mem h, String.ofList_toList]

theorem unbroken_of_not_mem (h : '\n' ∉ s.toList) : unbroken s = s := by
  have hall : s.toList.filter (· ≠ '\n') = s.toList := by
    refine List.filter_eq_self.2 fun c hc => ?_
    exact decide_eq_true fun hbreak => h (hbreak ▸ hc)
  rw [unbroken, hall, String.ofList_toList]

/-- **What is passed is longer than the text**, by one backslash a line break. -/
theorem not_mem_of_passed_le (h : (passed s).toList.length ≤ s.toList.length) :
    '\n' ∉ s.toList := by
  rw [passed, String.toList_ofList] at h
  exact Text.not_mem_of_length_replaceChar_le h

theorem passed_eq_iff : passed s = s ↔ '\n' ∉ s.toList :=
  ⟨fun h => not_mem_of_passed_le (by rw [h]), passed_of_not_mem⟩

theorem passed_eq_unbroken_iff : passed s = unbroken s ↔ '\n' ∉ s.toList := by
  constructor
  · intro h
    refine not_mem_of_passed_le ?_
    rw [h, unbroken, String.toList_ofList]
    exact List.length_filter_le _ _
  · intro h
    rw [passed_of_not_mem h, unbroken_of_not_mem h]

open Json.Strings in
/-- **What is passed of a JSON text with line breaks is no JSON.** The first line
break stands between strings, and so does the backslash before it. -/
theorem not_read_passed {v w : Json} (hs : Json.read s = .ok v) (hbreak : '\n' ∈ s.toList) :
    Json.read (passed s) ≠ .ok w := by
  intro hpassed
  obtain ⟨front, rest, hsplit, hfirst⟩ := List.eq_append_cons_of_mem hbreak
  have hread := scan?_of_read hs
  have hreadPassed := scan?_of_read hpassed
  have hchars : (passed s).toList =
      front ++ '\\' :: '\n' :: Text.replaceChar '\n' ['\\', '\n'] rest := by
    have hfront : Text.replaceChar '\n' ['\\', '\n'] front = front :=
      Text.replaceChar_of_not_mem hfirst
    rw [passed, String.toList_ofList, hsplit, Text.replaceChar, List.flatMap_append,
      ← Text.replaceChar, hfront, ← Text.replaceChar, Text.replaceChar_cons_self]
    rfl
  rw [hsplit, scan?_append] at hread
  rw [hchars, scan?_append] at hreadPassed
  cases hplace : scan? .between front with
  | none =>
    rw [hplace] at hread
    cases hread
  | some place =>
    rw [hplace] at hread hreadPassed
    cases place with
    | between => cases hreadPassed
    | string => cases hread
    | escape => cases hread

/-- **A body of one line is passed as it is, and no other one.** A shell reads
what is written for a text as one word, in which a backslash stands before each
line break. So it is the text, with or without its line breaks, when there are
none; and a text with line breaks that is JSON is passed as one that is not. -/
theorem continued_reads (s : String) (rest : List Char) (hrest : Shell.Ends rest) :
    Shell.word? ((continued s).toList ++ rest) = some ((passed s).toList, rest) ∧
      (passed s = s ↔ '\n' ∉ s.toList) ∧
      (passed s = unbroken s ↔ '\n' ∉ s.toList) ∧
      ((∃ v, Json.read s = .ok v) →
        ((∃ v, Json.read (passed s) = .ok v) ↔ '\n' ∉ s.toList)) := by
  refine ⟨word?_continued s hrest, passed_eq_iff, passed_eq_unbroken_iff, ?_⟩
  rintro ⟨v, hv⟩
  constructor
  · rintro ⟨w, hw⟩ hbreak
    exact not_read_passed hv hbreak hw
  · intro hline
    exact ⟨v, by rw [passed_of_not_mem hline, hv]⟩

/-- A body of three lines, as one is written. -/
def threeLines : String :=
  (Json.obj [("a", .str "it's")]).pretty

theorem continued_reads_threeLines :
    Shell.Ends " --top 5".toList ∧ Json.read threeLines = .ok (.obj [("a", .str "it's")]) ∧
      Shell.word? "'\x7b\\\n  \"a\": \"it'\\''s\"\\\n\x7d' --top 5".toList =
        some ("\x7b\\\n  \"a\": \"it's\"\\\n\x7d".toList, " --top 5".toList) ∧
      ¬ ∃ v, Json.read "\x7b\\\n  \"a\": \"it's\"\\\n\x7d" = .ok v := by
  have hends : Shell.Ends " --top 5".toList := by
    intro c hc
    rw [← Option.some.inj hc]
    decide
  have hjson : Json.read threeLines = .ok (.obj [("a", .str "it's")]) := by
    have hexact : (Json.obj [("a", .str "it's")]).IsExact :=
      .obj (by decide) (List.forall_mem_singleton.2 (.str "it's"))
    have hread := Json.read_writeAt Json.readable_indented hexact 0 Json.Reader.isGap_nil
    rwa [List.append_nil, String.ofList_toList] at hread
  have hpassed : passed threeLines = "\x7b\\\n  \"a\": \"it's\"\\\n\x7d" := by decide +kernel
  have htext : (continued threeLines).toList ++ " --top 5".toList =
      "'\x7b\\\n  \"a\": \"it'\\''s\"\\\n\x7d' --top 5".toList := by decide +kernel
  obtain ⟨hword, -, -, hread⟩ := continued_reads threeLines " --top 5".toList hends
  rw [hpassed, htext] at hword
  rw [hpassed] at hread
  exact ⟨hends, hjson, hword, fun hv => (hread ⟨_, hjson⟩).1 hv (by decide +kernel)⟩

end CommandLine

end ApiSnippets
