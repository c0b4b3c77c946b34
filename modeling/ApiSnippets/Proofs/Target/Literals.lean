import ApiSnippets.Proofs.Code.Literals
import ApiSnippets.Proofs.Target.CommandLine
/-!
# Texts of a request in every language

Names and values of headers, values of query options and of keys, and the texts
and map keys of bodies cannot break out of the literals they are written in:
each is in the snippet as a literal that is read as that very text
(`Snippet.texts_read_back`). A command passes a body as one text and names its
options after headers, so there the parts of a body and names of headers are no
literals.
-/

namespace ApiSnippets

namespace Within

variable {p s t chain : String} {ss arguments : List String}

/-- One of two texts that are written next to each other. -/
theorem pair (hp : p ∈ [s, t]) (sep : String) : Within p (s ++ sep ++ t) := by
  rcases List.mem_cons.1 hp with rfl | hp
  · exact ((refl _).left sep).left _
  · obtain rfl := List.mem_singleton.1 hp
    exact (refl _).right _

theorem pair_behind (hp : p ∈ [s, t]) (start sep : String) :
    Within p (start ++ s ++ sep ++ t) := by
  have hpair : Within p (start ++ (s ++ sep ++ t)) := (pair hp sep).right start
  simpa only [String.append_assoc] using hpair

/-- A line between others, one level deeper. -/
theorem joined (ht : t ∈ ss) (h : Within s t) (before after : List String) :
    Within s (Language.joined (before ++ ss.map Language.indented ++ after)) := by
  have hline : Language.indented t ∈ before ++ ss.map Language.indented ++ after :=
    List.mem_append_left _ (List.mem_append_right _ (List.mem_map_of_mem ht))
  exact Within.intercalate hline (h.right _)

/-- A chain of accessors, or an argument behind it. -/
theorem call (hp : p ∈ chain :: arguments) (start method ending : String) :
    Within p (start ++ chain ++ method ++ String.intercalate ", " arguments ++ ending) := by
  rcases List.mem_cons.1 hp with rfl | hp
  · exact (((refl p).right start).left method |>.left _).left ending
  · exact ((intercalate hp (refl p)).right _).left ending

end Within

/-! ## The languages -/

namespace CSharp

/-- C# writes texts between double quotes. -/
theorem quotes : Language.Quotes language .double where
  text := rfl
  literal :=
    { guid := fun v => (Within.refl _).between _ _
      moment := fun t v => by cases t <;> exact (Within.refl _).between _ _
      binary := fun v => (Within.refl _).between _ _ }
  body := .inl ⟨style, rfl, fun key => (Within.refl _).between _ _⟩
  headers r h hh t ht := by
    refine ⟨configuration r, List.mem_singleton_self _, ?_⟩
    refine Within.joined (List.mem_append_right _ (List.mem_map_of_mem hh)) ?_ _ _
    exact (Within.pair_behind ht _ _).left _
  query r o ho v hv := by
    refine ⟨configuration r, List.mem_singleton_self _, ?_⟩
    refine Within.joined (List.mem_append_left _ (List.mem_map_of_mem ho)) ?_ _ _
    exact (Dialect.within_optionValue hv _ _ _).between _ _
  keys := rfl
  arguments body configured p hp hne := List.mem_filter.2 ⟨hp, by simpa using hne⟩
  call chain arguments r p hp := by
    have hcall := Within.call hp ((if r.operation.responseSchema.isSome then "var result = "
      else "") ++ "await graphClient") ("." ++ Naming.pascal r.method.name ++ "Async(") ");"
    show Within p (call chain arguments r)
    simpa only [CSharp.call, String.append_assoc] using hcall

end CSharp

namespace Java

/-- The texts of a statement stand in its lines. -/
theorem within_statement {st : Statement} {p : String} (hp : p ∈ Statement.pieces dialect st) :
    ∃ line ∈ statement st, Within p line := by
  cases st with
  | object _ _ | stream _ _ => cases hp
  | list name item elements =>
    obtain ⟨e, he, rfl⟩ := List.mem_map.1 hp
    exact ⟨_, List.mem_cons_of_mem _ (List.mem_map_of_mem he), (Within.refl _).between _ _⟩
  | map name entries =>
    obtain ⟨e, he, hp⟩ := Statement.exists_entry hp
    refine ⟨_, List.mem_cons_of_mem _ (List.mem_map_of_mem he), ?_⟩
    exact (Within.pair_behind hp _ _).left _
  | assign owner member value =>
    obtain rfl := List.mem_singleton.1 hp
    exact ⟨_, List.mem_singleton_self _, (Within.refl _).between _ _⟩
  | scalar name text | moment name text =>
    obtain rfl := List.mem_singleton.1 hp
    exact ⟨_, List.mem_singleton_self _, (Within.refl _).between _ _⟩

/-- Java writes texts between double quotes. -/
theorem quotes : Language.Quotes language .double where
  text := rfl
  literal :=
    { guid := fun v => (Within.refl _).between _ _
      moment := fun t v => by cases t <;> exact (Within.refl _).between _ _
      binary := fun v => (Within.refl _).between _ _ }
  body := .inr ⟨style, rfl, fun _ _ _ hp => within_statement hp⟩
  headers r h hh t ht := by
    refine ⟨configuration r, List.mem_singleton_self _, ?_⟩
    refine Within.joined (List.mem_append_right _ (List.mem_map_of_mem hh)) ?_ _ _
    exact (Within.pair_behind ht _ _).left _
  query r o ho v hv := by
    refine ⟨configuration r, List.mem_singleton_self _, ?_⟩
    refine Within.joined (List.mem_append_left _ (List.mem_map_of_mem ho)) ?_ _ _
    exact (Dialect.within_optionValue hv _ _ _).between _ _
  keys := rfl
  arguments body configured p hp hne := List.mem_filter.2 ⟨hp, by simpa using hne⟩
  call chain arguments r p hp := by
    have hcall := Within.call hp (result r ++ "graphClient") ("." ++ r.method.name ++ "(") ");"
    show Within p (call chain arguments r)
    simpa only [Java.call, String.append_assoc] using hcall

end Java

namespace Python

/-- Python writes texts between double quotes. -/
theorem quotes : Language.Quotes language .double where
  text := rfl
  literal :=
    { guid := fun v => (Within.refl _).between _ _
      moment := fun t v => by
        cases t with
        | dateTime | date | time => exact (Within.refl _).between _ _
        | duration | other => exact Within.refl _
      binary := fun v => (Within.refl _).between _ _ }
  body := .inl ⟨style, rfl, fun key => (Within.refl _).left _⟩
  headers r h hh t ht := by
    refine ⟨_, ?_, (Within.pair_behind ht "request_configuration.headers.add(" ", ").left ")"⟩
    exact List.mem_append_left _ (List.mem_append_right _ (List.mem_map_of_mem hh))
  query r o ho v hv := by
    have hquery : r.query.isEmpty = false := List.isEmpty_eq_false_iff_exists_mem.2 ⟨o, ho⟩
    have hoption := (Dialect.within_optionValue (d := dialect) hv "[" "," "]").between
      (property o.name ++ " = ") ","
    refine ⟨_, List.mem_append_left _ ?_, hoption.right Line.tab⟩
    show _ ∈ configuration r
    simp only [configuration, hquery, Bool.false_eq_true, if_false, queryParameters]
    refine List.mem_append_left _ (List.mem_append_left _ (List.mem_append_left _ ?_))
    exact List.mem_append_right _ (List.mem_map_of_mem (List.mem_map_of_mem ho))
  keys := rfl
  arguments body configured p hp hne := List.mem_filter.2 ⟨hp, by simpa using hne⟩
  call chain arguments r p hp := by
    have hcall := Within.call hp ((if r.operation.responseSchema.isSome then "result = "
      else "") ++ "await graph_client") ("." ++ r.method.name ++ "(") ")"
    show Within p (call chain arguments r)
    simpa only [Python.call, String.append_assoc] using hcall

end Python

namespace Go

/-- A number is converted, a text is not. -/
theorem within_optionValue {value : OptionValue} {v : String} (hv : v ∈ value.texts) :
    Within (dialect.text v) (optionValue value) := by
  have hvalue := Dialect.within_optionValue (d := dialect) hv "[] string \x7b" "," "\x7d"
  cases value with
  | list _ | text _ => exact hvalue
  | flag _ | int _ | num _ => cases hv

/-- The texts of a statement stand in its lines. -/
theorem within_statement {segments : List PathSegment} {st : Statement} {p : String}
    (hp : p ∈ Statement.pieces dialect st) : ∃ line ∈ statement segments st, Within p line := by
  cases st with
  | object _ _ | stream _ _ => cases hp
  | list name item elements =>
    obtain ⟨e, he, rfl⟩ := List.mem_map.1 hp
    refine ⟨_, List.mem_append_left _ (List.mem_append_right _ (List.mem_map_of_mem he)), ?_⟩
    exact ((Within.refl _).left ",").right Line.tab
  | map name entries =>
    obtain ⟨e, he, hp⟩ := Statement.exists_entry hp
    refine ⟨_, List.mem_append_left _ (List.mem_append_right _ (List.mem_map_of_mem he)), ?_⟩
    exact ((Within.pair hp _).left ",").right Line.tab
  | assign owner member value =>
    obtain rfl := List.mem_singleton.1 hp
    exact ⟨_, List.mem_singleton_self _, (Within.refl _).between _ _⟩
  | scalar name text =>
    obtain rfl := List.mem_singleton.1 hp
    exact ⟨_, List.mem_singleton_self _, (Within.refl _).right _⟩
  | moment name text =>
    obtain rfl := List.mem_singleton.1 hp
    exact ⟨_, List.mem_singleton_self _, (Within.refl _).between _ _⟩

/-- The value of a query option stands in a variable, or in the parameters
themselves when it is a list. -/
theorem within_queryParameters {r : ResolvedRequest} {o : QueryOption} (ho : o ∈ r.query)
    {v : String} (hv : v ∈ o.value.texts) :
    ∃ line ∈ queryParameters r, Within (dialect.text v) line := by
  have hquery : r.query.isEmpty = false := List.isEmpty_eq_false_iff_exists_mem.2 ⟨o, ho⟩
  have hvalue := within_optionValue hv
  simp only [queryParameters, hquery, Bool.false_eq_true, if_false]
  cases hlist : isList o.value with
  | true =>
    have hfield : optionField o = Naming.pascal o.name ++ ": " ++ optionValue o.value ++ "," := by
      simp [optionField, hlist]
    refine ⟨Language.indented (optionField o), ?_, ?_⟩
    · exact List.mem_append_left _ (List.mem_append_right _ (List.mem_map_of_mem ho))
    · rw [hfield]
      exact (hvalue.between _ _).right Line.tab
  | false =>
    have hvariable : (optionVariable o, optionValue o.value) ∈ optionVariables r :=
      List.mem_map_of_mem (List.mem_filter.2 ⟨ho, by simp [hlist]⟩)
    refine ⟨_, ?_, hvalue.right (optionVariable o ++ " := ")⟩
    refine List.mem_append_left _ (List.mem_append_left _ (List.mem_append_left _ ?_))
    exact List.mem_append_left _ (List.mem_map_of_mem hvariable)

/-- Go writes texts between double quotes. -/
theorem quotes : Language.Quotes language .double where
  text := rfl
  literal :=
    { guid := fun v => (Within.refl _).between _ _
      moment := fun _ v => Within.refl _
      binary := fun v => (Within.refl _).between _ _ }
  body := .inr ⟨style, rfl, fun _ _ _ hp => within_statement hp⟩
  headers r h hh t ht := by
    have hheaders : r.headers.isEmpty = false := List.isEmpty_eq_false_iff_exists_mem.2 ⟨h, hh⟩
    refine ⟨_, List.mem_append_left _ ?_, (Within.pair_behind ht "headers.Add(" ", ").left ")"⟩
    show _ ∈ configuration r
    simp only [configuration, headers, hheaders, Bool.false_eq_true, if_false]
    refine List.mem_append_left _ (List.mem_append_left _ (List.mem_append_left _ ?_))
    refine List.mem_append_left _ (List.mem_append_left _ (List.mem_append_right _ ?_))
    exact List.mem_map_of_mem hh
  query r o ho v hv := by
    obtain ⟨line, hline, hwithin⟩ := within_queryParameters ho hv
    refine ⟨line, List.mem_append_left _ (List.mem_append_left _ ?_), hwithin⟩
    exact List.mem_append_left _ (List.mem_append_left _ (List.mem_append_right _ hline))
  keys := rfl
  arguments body configured p hp hne := by
    show p ∈ arguments body configured
    rcases List.mem_append.1 hp with hp | hp
    · obtain rfl := Option.mem_toList.1 hp
      simp [arguments, hne]
    · obtain rfl := Option.mem_toList.1 hp
      simp [arguments, Option.filter, hne]
  call chain arguments r p hp := by
    have hcall := Within.call hp ((if r.operation.responseSchema.isSome then "result, err := "
      else "") ++ "graphClient") ("." ++ Naming.pascal r.method.name ++ "(") ")"
    show Within p (call chain arguments r)
    simpa only [Go.call, String.append_assoc] using hcall

end Go

namespace TypeScript

/-- The text of a query option. -/
def optionText (o : QueryOption) : String :=
  Naming.camel o.name ++ ": " ++ dialect.optionValue (dialect.texts "[" "," "]") o.value

/-- The text of a header. -/
def headerText (h : Header) : String :=
  Text.doubleQuoted h.name ++ " : " ++ Text.doubleQuoted h.value

/-- An entry of a section of the configuration. -/
theorem within_configurationPart (name : String) {entries : List String} {s e : String}
    (he : e ∈ entries) (h : Within s e) :
    ∃ part ∈ configurationPart name entries, Within s part := by
  have hentries : entries.isEmpty = false := List.isEmpty_eq_false_iff_exists_mem.2 ⟨e, he⟩
  simp only [configurationPart, hentries, Bool.false_eq_true, if_false]
  have hentry : Within s (Language.indented (Language.indented e)) := (h.right _).right _
  have hlines : Within s (String.intercalate ",\n" (entries.map fun e =>
      Language.indented (Language.indented e))) :=
    Within.intercalate (List.mem_map_of_mem he) hentry
  exact ⟨_, List.mem_singleton_self _, Within.intercalate (by simp) hlines⟩

/-- Every option and every header is an entry of the configuration. -/
theorem within_configuration {s e : String} {r : ResolvedRequest}
    (he : e ∈ r.query.map optionText ∨ e ∈ r.headers.map headerText) (h : Within s e) :
    Within s (configuration r) := by
  have hpart : ∃ part ∈ configurationPart "queryParameters" (r.query.map optionText) ++
      configurationPart "headers" (r.headers.map headerText), Within s part := by
    rcases he with he | he
    · obtain ⟨part, hpart, hwithin⟩ := within_configurationPart "queryParameters" he h
      exact ⟨part, List.mem_append_left _ hpart, hwithin⟩
    · obtain ⟨part, hpart, hwithin⟩ := within_configurationPart "headers" he h
      exact ⟨part, List.mem_append_right _ hpart, hwithin⟩
  obtain ⟨part, hpart, hwithin⟩ := hpart
  exact (Within.intercalate hpart hwithin).between "\x7b\n" "\n\x7d"

/-- TypeScript writes texts between double quotes. -/
theorem quotes : Language.Quotes language .double where
  text := rfl
  literal :=
    { guid := fun v => Within.refl _
      moment := fun t v => by
        cases t with
        | dateTime => exact (Within.refl _).between _ _
        | date | time | duration | other => exact Within.refl _
      binary := fun v => Within.refl _ }
  body := .inl ⟨style, rfl, fun key => (Within.refl _).left _⟩
  headers r h hh t ht := by
    refine ⟨configuration r, List.mem_singleton_self _, ?_⟩
    have hheader : headerText h ∈ r.headers.map headerText := List.mem_map_of_mem hh
    exact within_configuration (.inr hheader) (Within.pair ht " : ")
  query r o ho v hv := by
    refine ⟨configuration r, List.mem_singleton_self _, ?_⟩
    have hoption : optionText o ∈ r.query.map optionText := List.mem_map_of_mem ho
    have hvalue := Dialect.within_optionValue (d := dialect) hv "[" "," "]"
    exact within_configuration (.inl hoption) (hvalue.right (Naming.camel o.name ++ ": "))
  keys := rfl
  arguments body configured p hp hne := List.mem_filter.2 ⟨hp, by simpa using hne⟩
  call chain arguments r p hp := by
    have hcall := Within.call hp ((if r.operation.responseSchema.isSome then "const result = "
      else "") ++ "await graphServiceClient") ("." ++ r.method.name ++ "(") ");"
    show Within p (call chain arguments r)
    simpa only [TypeScript.call, String.append_assoc] using hcall

end TypeScript

namespace Php

/-- The texts of a statement stand in its lines. -/
theorem within_statement {st : Statement} {p : String} (hp : p ∈ Statement.pieces dialect st) :
    ∃ line ∈ statement st, Within p line := by
  cases st with
  | object _ _ | stream _ _ => cases hp
  | list name item elements =>
    obtain ⟨e, he, rfl⟩ := List.mem_map.1 hp
    have helements : elements.isEmpty = false :=
      List.isEmpty_eq_false_iff_exists_mem.2 ⟨e, he⟩
    simp only [statement, helements, Bool.false_eq_true, if_false]
    refine ⟨_, List.mem_append_left _ (List.mem_append_right _ (List.mem_map_of_mem he)), ?_⟩
    exact ((Within.refl _).left ",").right Line.tab
  | map name entries =>
    obtain ⟨e, he, hp⟩ := Statement.exists_entry hp
    refine ⟨_, List.mem_append_left _ (List.mem_append_right _ (List.mem_map_of_mem he)), ?_⟩
    exact ((Within.pair hp _).left ",").right Line.tab
  | assign owner member value =>
    obtain rfl := List.mem_singleton.1 hp
    exact ⟨_, List.mem_singleton_self _, (Within.refl _).between _ _⟩
  | scalar name text | moment name text =>
    obtain rfl := List.mem_singleton.1 hp
    exact ⟨_, List.mem_singleton_self _, (Within.refl _).between _ _⟩

/-- PHP writes texts between single quotes. -/
theorem quotes : Language.Quotes language .single where
  text := rfl
  literal :=
    { guid := fun v => Within.refl _
      moment := fun t v => by cases t <;> exact (Within.refl _).between _ _
      binary := fun v => (Within.refl _).between _ _ }
  body := .inr ⟨style, rfl, fun _ _ _ hp => within_statement hp⟩
  headers r h hh t ht := by
    have hheaders : r.headers.isEmpty = false := List.isEmpty_eq_false_iff_exists_mem.2 ⟨h, hh⟩
    refine ⟨_, List.mem_append_left _ ?_, ((Within.pair ht " => ").left ",").right Line.tab⟩
    show _ ∈ configuration r
    simp only [configuration, headers, hheaders, Bool.false_eq_true, if_false]
    refine List.mem_append_left _ (List.mem_append_right _ (List.mem_append_left _ ?_))
    exact List.mem_append_right _ (List.mem_map_of_mem hh)
  query r o ho v hv := by
    have hquery : r.query.isEmpty = false := List.isEmpty_eq_false_iff_exists_mem.2 ⟨o, ho⟩
    have hoption := (Dialect.within_optionValue (d := dialect) hv "[" "," "]").between
      ("$queryParameters->" ++ Naming.camel o.name ++ " = ") ";"
    refine ⟨_, List.mem_append_left _ ?_, hoption⟩
    show _ ∈ configuration r
    simp only [configuration, queryParameters, hquery, Bool.false_eq_true, if_false]
    refine List.mem_append_right _ (List.mem_append_left _ (List.mem_append_right _ ?_))
    exact List.mem_map_of_mem ho
  keys := rfl
  arguments body configured p hp hne := List.mem_filter.2 ⟨hp, by simpa using hne⟩
  call chain arguments r p hp := by
    have hcall := Within.call hp ((if r.operation.responseSchema.isSome then "$result = "
      else "") ++ "$graphServiceClient") ("->" ++ r.method.name ++ "(") ")->wait();"
    show Within p (call chain arguments r)
    simpa only [Php.call, String.append_assoc] using hcall

end Php

namespace CommandLine

variable {n v : String} {r : ResolvedRequest} {body : Option BodyGraph}

/-- What follows a part of a command begins with a space. -/
theorem exists_intercalate_eq (t : String) (ts : List String) :
    ∃ rest, String.intercalate " " (t :: ts) = t ++ rest ∧
      Shell.Ends (rest ++ "\n").toList := by
  cases ts with
  | nil => exact ⟨"", by simp, by simp [Shell.Ends, Shell.isBlank]⟩
  | cons u ts =>
    refine ⟨" " ++ String.intercalate " " (u :: ts), ?_, by simp [Shell.Ends, Shell.isBlank]⟩
    rw [String.intercalate_cons_cons, String.append_assoc]

/-- **The value of an option is a word of its own.** -/
theorem shows_option (ho : (n, Text.shellWord v) ∈ options body r) :
    Quoting.word.Shows (command body r ++ "\n") v := by
  obtain ⟨before, after, hoptions⟩ := List.append_of_mem ho
  obtain ⟨rest, hrest, hends⟩ :=
    exists_intercalate_eq (writeOption (n, Text.shellWord v)) (after.map writeOption)
  have hcommand : command body r ++ "\n" =
      String.intercalate " " (["mgc" ++ dialect.chain r.segments, verb r] ++
        before.map writeOption) ++ " --" ++ n ++ " " ++ (Text.shellWord v ++ (rest ++ "\n")) := by
    rw [command, hoptions, List.map_append, List.map_cons, ← List.append_assoc,
      String.intercalate_append_of_ne_nil (by simp) (by simp), hrest, writeOption]
    have hdashes : " --" = " " ++ "--" := rfl
    simp only [hdashes, String.append_assoc]
  rw [hcommand]
  exact Quoting.shows_append _ hends

/-- The texts of an option that a command passes as words: a list is one. -/
def words : OptionValue → List String
  | .list items => [String.intercalate "," items]
  | .text s => [s]
  | _ => []

theorem exists_query_option (body : Option BodyGraph) {o : QueryOption} (ho : o ∈ r.query)
    (hv : v ∈ words o.value) :
    ∃ n, (n, Text.shellWord v) ∈ options body r := by
  have hwritten : optionValue o.value = Text.shellWord v := by
    cases hvalue : o.value with
    | list items | text s =>
      rw [hvalue] at hv
      obtain rfl := List.mem_singleton.1 hv
      rfl
    | flag _ | int _ | num _ =>
      rw [hvalue] at hv
      cases hv
  have hmem : Text.shellWord v ∈ (callOptions r).map Prod.snd := by
    rw [values_callOptions, ← hwritten]
    exact List.mem_append_left _ (List.mem_map_of_mem ho)
  obtain ⟨⟨n, _⟩, hoption, rfl⟩ := List.mem_map.1 hmem
  exact ⟨n, List.mem_append_left _ (List.mem_append_right _ hoption)⟩

theorem exists_header_option (body : Option BodyGraph) {h : Header} (hh : h ∈ r.headers) :
    ∃ n, (n, Text.shellWord h.value) ∈ options body r := by
  have hmem : Text.shellWord h.value ∈ (callOptions r).map Prod.snd := by
    rw [values_callOptions]
    exact List.mem_append_right _ (List.mem_map_of_mem hh)
  obtain ⟨⟨n, _⟩, hoption, rfl⟩ := List.mem_map.1 hmem
  exact ⟨n, List.mem_append_left _ (List.mem_append_right _ hoption)⟩

/-- A key is an option unless a later one of its name takes its place. -/
theorem mem_options_of_key {before after : List PathSegment} {s : PathSegment}
    {collection key : String} (hsegments : r.segments = before ++ s :: after)
    (hrole : s.role = .alternate collection key (some v))
    (hlast : ∀ t ∈ after, Naming.kebab key ∉ (segmentOptions t).map Prod.fst) :
    (Naming.kebab key, Text.shellWord v) ∈ options body r := by
  have hown : segmentOptions s = [(Naming.kebab key, Text.shellWord v)] := by
    simp [segmentOptions, hrole]
  have hnone : (after.flatMap segmentOptions).reverse.lookup (Naming.kebab key) = none := by
    rw [List.lookup_eq_none_iff]
    intro p hp
    obtain ⟨t, ht, hp⟩ := List.mem_flatMap.1 (List.mem_reverse.1 hp)
    have hne : Naming.kebab key ≠ p.1 := by
      intro h
      exact hlast t ht (h ▸ List.mem_map_of_mem hp)
    simpa using hne
  have hget : Entries.get? (pathOptions r.segments) (Naming.kebab key) =
      some (Text.shellWord v) := by
    rw [pathOptions, Entries.get?_ofPairs, hsegments, List.flatMap_append, List.flatMap_cons, hown]
    simp [List.lookup_append, hnone]
  have hmem : (Naming.kebab key, Text.shellWord v) ∈ pathOptions r.segments := by
    obtain ⟨l₁, l₂, hsplit, -⟩ := List.lookup_eq_some_iff.1 hget
    simp [hsplit]
  exact List.mem_append_left _ (List.mem_append_left _ hmem)

end CommandLine

/-! ## Snippets -/

/-- How a language writes texts. -/
def Language.quoting (l : Language) : Quoting :=
  if l.id = Php.language.id then .single
  else if l.id = CommandLine.language.id then .word
  else .double

namespace Snippet

/-- That a snippet shows the texts of its request. -/
structure Reproduces (q : Quoting) (r : ResolvedRequest) (body : Option BodyGraph)
    (text : String) : Prop where
  headerValue : ∀ h ∈ r.headers, q.Shows text h.value
  /-- A command has options for headers, which are called like them. -/
  headerName : q ≠ .word → ∀ h ∈ r.headers, q.Shows text h.name
  query : ∀ o ∈ r.query,
    ∀ v ∈ if q = .word then CommandLine.words o.value else o.value.texts, q.Shows text v
  /-- A command has one option for keys of one name. -/
  key : ∀ before s after collection key v, r.segments = before ++ s :: after →
    s.role = .alternate collection key (some v) →
    (q = .word →
      ∀ t ∈ after, Naming.kebab key ∉ (CommandLine.segmentOptions t).map Prod.fst) →
    q.Shows text v
  /-- A command passes the text of the body. -/
  body : q ≠ .word → ∀ g, body = some g → ∀ n ∈ g.root.walk, ∀ v ∈ n.texts, q.Shows text v

variable {l : Language} {q : Quoting} {r : ResolvedRequest} {body : Option BodyGraph}
  {imports : List String} {text : String}

/-- Languages that write texts between quotes. -/
theorem reproduces_of_quotes (hl : l.Quotes q) (hq : q ≠ .word)
    (h : write l r body imports = .ok text) : Reproduces q r body text := by
  obtain ⟨part, hpart, hcode⟩ := hl.within_write h
  have hshows : ∀ v, (∃ p ∈ l.codeOf r part, Within (l.dialect.text v) p) → q.Shows text v := by
    rintro v ⟨p, hp, hwithin⟩
    rw [hl.text] at hwithin
    exact Quoting.shows_of_within hq (hcode p hp _ hwithin)
  -- what the configuration holds is written when there is anything to configure
  have hconfigured : r.hasConfiguration = true → ∀ v,
      (∃ p ∈ (l.configuration r).1 ++ (l.configuration r).2.toList,
        Within (l.dialect.text v) p) → q.Shows text v := by
    rintro hconf v ⟨p, hp, hwithin⟩
    refine hshows v ⟨p, ?_, hwithin⟩
    rw [Language.codeOf, hconf]
    exact List.mem_append_left _ (List.mem_append_right _ hp)
  have hheader : ∀ h ∈ r.headers, ∀ v ∈ [h.name, h.value], q.Shows text v := by
    intro h hh v hv
    have hconf : r.hasConfiguration = true := by
      have hheaders : r.headers ≠ [] := List.ne_nil_of_mem hh
      simp [ResolvedRequest.hasConfiguration, hheaders]
    exact hconfigured hconf v (hl.headers r h hh _ (List.mem_map_of_mem (f := l.dialect.text) hv))
  constructor
  · exact fun h hh => hheader h hh h.value (by simp)
  · exact fun _ h hh => hheader h hh h.name (by simp)
  · intro o ho v hv
    rw [if_neg hq] at hv
    have hconf : r.hasConfiguration = true := by
      have hquery : r.query ≠ [] := List.ne_nil_of_mem ho
      simp [ResolvedRequest.hasConfiguration, hquery]
    exact hconfigured hconf v (hl.query r o ho v hv)
  · intro before s after collection key v hsegments hrole _
    refine hshows v ⟨_, List.mem_append_right _ (List.mem_singleton_self _), ?_⟩
    exact hl.within_chain (by simp [hsegments]) hrole
  · rintro - g rfl n hn v hv
    obtain ⟨p, hp, hwithin⟩ := hl.carries_bodyCode hpart n hn v hv
    exact hshows v ⟨p, List.mem_append_left _ (List.mem_append_left _ hp), hwithin⟩

/-- Commands. -/
theorem reproduces_command (r : ResolvedRequest) (body : Option BodyGraph) :
    Reproduces .word r body (CommandLine.command body r ++ "\n") := by
  constructor
  · intro h hh
    obtain ⟨n, hoption⟩ := CommandLine.exists_header_option body hh
    exact CommandLine.shows_option hoption
  · exact fun h => absurd rfl h
  · intro o ho v hv
    rw [if_pos rfl] at hv
    obtain ⟨n, hoption⟩ := CommandLine.exists_query_option body ho hv
    exact CommandLine.shows_option hoption
  · intro before s after collection key v hsegments hrole hlast
    exact CommandLine.shows_option (CommandLine.mem_options_of_key hsegments hrole (hlast rfl))
  · exact fun h => absurd rfl h

/-- A snippet that can be written has the code of its body behind the
imports. -/
theorem write_eq_ok (h : write l r body imports = .ok text) :
    ∃ part rest, bodyPart l r body = .ok part ∧
      text = ofBlocks (l.prologue :: imports :: part.1 :: rest) := by
  obtain ⟨part, hpart, h⟩ := Outcome.bind_eq_ok.1 h
  exact ⟨part, _, hpart, (Outcome.pure_eq_ok.1 h).symm⟩

/-- A snippet is written with the body and with the imports for it. -/
theorem generate_eq_ok (h : generate l r = .ok text) : ∃ body draft imports,
    (Body.build r).outcome = .ok body ∧ Imports.resolve r l body (some draft) = .ok imports ∧
      write l r body imports = .ok text := by
  obtain ⟨body, hbody, h⟩ := Outcome.bind_eq_ok.1 h
  obtain ⟨draft, -, h⟩ := Outcome.bind_eq_ok.1 h
  obtain ⟨imports, himports, h⟩ := Outcome.bind_eq_ok.1 h
  exact ⟨body, draft, imports, hbody, himports, h⟩

/-- **Texts of a request are read back.** What a language writes for a text is
read as that text, whatever follows a quoted one: between double quotes by the
escapes of JSON, between single quotes in PHP, and as one word by a shell. In
every language, the texts of a request are in its snippet as such literals. -/
theorem texts_read_back :
    (∀ (s : String) (rest : List Char),
      Quoted.double? ((Text.doubleQuoted s).toList ++ rest) = some (s.toList, rest)) ∧
    (∀ (s : String) (rest : List Char),
      Quoted.single? ((Text.singleQuoted s).toList ++ rest) = some (s.toList, rest)) ∧
    (∀ (s : String) (rest : List Char), Shell.Ends rest →
      Shell.word? ((Text.shellWord s).toList ++ rest) = some (s.toList, rest)) ∧
    (∀ l ∈ [CSharp.language, Java.language, Python.language, Go.language, TypeScript.language],
      l.quoting = .double ∧ l.dialect.text = Text.doubleQuoted) ∧
    (Php.language.quoting = .single ∧ Php.language.dialect.text = Text.singleQuoted) ∧
    (CommandLine.language.quoting = .word ∧
      CommandLine.language.dialect.text = Text.shellWord) ∧
    ∀ l ∈ Language.all, ∀ r text, generate l r = .ok text →
      ∃ body, (Body.build r).outcome = .ok body ∧ Reproduces l.quoting r body text := by
  refine ⟨Quoted.double?_doubleQuoted, Quoted.single?_singleQuoted,
    fun s rest => Shell.word?_shellWord s, ?_, ⟨by decide, rfl⟩, ⟨by decide, rfl⟩, ?_⟩
  · intro l hl
    simp only [List.mem_cons, List.not_mem_nil, or_false] at hl
    rcases hl with rfl | rfl | rfl | rfl | rfl <;> exact ⟨by decide, rfl⟩
  · intro l hl r text h
    obtain ⟨body, draft, imports, hbody, himports, hwrite⟩ := generate_eq_ok h
    refine ⟨body, hbody, ?_⟩
    simp only [Language.all, List.mem_cons, List.not_mem_nil, or_false] at hl
    rcases hl with rfl | rfl | rfl | rfl | rfl | rfl | rfl
    · exact reproduces_of_quotes CSharp.quotes (by decide) hwrite
    · exact reproduces_of_quotes Java.quotes (by decide) hwrite
    · exact reproduces_of_quotes Python.quotes (by decide) hwrite
    · exact reproduces_of_quotes Go.quotes (by decide) hwrite
    · exact reproduces_of_quotes TypeScript.quotes (by decide) hwrite
    · exact reproduces_of_quotes Php.quotes (by decide) hwrite
    · -- a command has no imports
      obtain rfl : [] = imports := Except.ok.inj himports
      rw [CommandLine.write_command] at hwrite
      obtain rfl := Except.ok.inj hwrite
      exact reproduces_command r body

/-- A request with quotes, escapes and a line feed in a header. -/
def quotedRequest : ResolvedRequest where
  method := .get
  version := "v1.0"
  path := "/me"
  template := "/me"
  segments := [PathSegment.literal "me"]
  operation := { method := .get }
  query := []
  headers := [⟨"X-\"", "\\\n'"⟩]
  contentType := none
  body := none
  index := default

theorem exists_generate_quoted :
    ∃ text, generate Java.language quotedRequest = .ok text := ⟨_, rfl⟩

theorem texts_read_back_quoted :
    Shell.word? ((Text.shellWord "a'b").toList ++ [' ']) = some ("a'b".toList, [' ']) ∧
    ∃ text, generate Java.language quotedRequest = .ok text ∧
      Quoting.double.Shows text "X-\"" ∧ Quoting.double.Shows text "\\\n'" := by
  obtain ⟨-, -, hword, hquoting, -, -, hsnippets⟩ := texts_read_back
  have hends : Shell.Ends [' '] := by simp [Shell.Ends, Shell.isBlank]
  have hall : Java.language ∈ Language.all := List.mem_cons_of_mem _ List.mem_cons_self
  have hdouble : Java.language.quoting = .double :=
    (hquoting Java.language (List.mem_cons_of_mem _ List.mem_cons_self)).1
  obtain ⟨text, htext⟩ := exists_generate_quoted
  obtain ⟨body, -, hshown⟩ := hsnippets Java.language hall quotedRequest text htext
  rw [hdouble] at hshown
  have hheader : (⟨"X-\"", "\\\n'"⟩ : Header) ∈ quotedRequest.headers := List.mem_singleton_self _
  have hquotes : Quoting.double ≠ .word := by decide
  have hname := hshown.headerName hquotes _ hheader
  have hvalue := hshown.headerValue _ hheader
  exact ⟨hword "a'b" [' '] hends, text, htext, hname, hvalue⟩

end Snippet

end ApiSnippets
