import ApiSnippets.Proofs.Code.Alike
import ApiSnippets.Proofs.Target.TypeScript
/-!
# Imports for alike requests

Every language with imports puts the texts of a request into its code as
literals of one kind, and neither its imports nor the rest of its code depends
on them. Texts do get into the text that is scanned for names of models,
though, so imports do not depend on texts in whose literals a scan finds the
same names (`Snippet.generate_alike`).
-/

namespace ApiSnippets

/-! ## Lines and arguments -/

namespace Woven

variable {q : Quoting} {R : String → String → Prop} {o o' : Option String}
  {ss ss' before after : List String}

/-- Lines between others, one level deeper. -/
theorem joined (h : List.Forall₂ (Woven q R) ss ss') :
    Woven q R (Language.joined (before ++ ss.map Language.indented ++ after))
      (Language.joined (before ++ ss'.map Language.indented ++ after)) :=
  intercalate (List.rel_append (List.rel_append (lines before) (indented h)) (lines after))

theorem toList (h : Option.Rel (Woven q R) o o') :
    List.Forall₂ (Woven q R) o.toList o'.toList := by
  cases h with
  | none => exact .nil
  | some hs => exact .cons hs .nil

theorem filter (hq : q ≠ .word) (h : Option.Rel (Woven q R) o o') :
    Option.Rel (Woven q R) (o.filter (· ≠ "")) (o'.filter (· ≠ "")) := by
  cases h with
  | none => exact .none
  | @some s s' hs =>
    by_cases hempty : s = ""
    · rw [Option.filter_some, Option.filter_some, if_neg (by simpa using hempty),
        if_neg (by simpa using (hs.eq_empty_iff hq).1 hempty)]
      exact .none
    · rw [Option.filter_some, Option.filter_some, if_pos (by simpa using hempty),
        if_pos (by simpa using fun hempty' => hempty ((hs.eq_empty_iff hq).2 hempty'))]
      exact .some hs

theorem getD (h : Option.Rel (Woven q R) o o') (s : String) :
    Woven q R (o.getD s) (o'.getD s) := by
  cases h with
  | none => exact .const s
  | some hs => exact hs

/-- The arguments of a call that has those of the body and of the configuration
where there are such. -/
theorem arguments (hq : q ≠ .word) {body body' conf conf' : Option String}
    (hbody : Option.Rel (Woven q R) body body') (hconf : Option.Rel (Woven q R) conf conf') :
    List.Forall₂ (Woven q R) ((body.toList ++ conf.toList).filter (· ≠ ""))
      ((body'.toList ++ conf'.toList).filter (· ≠ "")) := by
  refine List.rel_filter (fun s s' hs => ?_) (List.rel_append (toList hbody) (toList hconf))
  simpa using not_congr (hs.eq_empty_iff hq)

end Woven

/-! ## The languages -/

variable {R : String → String → Prop} {r r' : ResolvedRequest}

namespace CSharp

theorem woven_configuration (h : r.Alike R r') :
    Woven .double R (configuration r) (configuration r') := by
  refine .joined (List.rel_append (List.rel_map ?_ h.query) (List.rel_map ?_ h.headers))
  · intro o o' ho
    simp only [ho.name]
    exact (Dialect.woven_optionValue rfl _ ho.value).around _ _
  · intro x x' hx
    simp only [hx.name]
    exact Woven.around _ _ (.literal hx.value)

theorem weaves : language.Weaves .double R where
  text := rfl
  expresses := nofun
  declaration hs _ _ _ _ := by
    obtain rfl := BodyStyle.initializer.inj hs
    rfl
  hint := nofun
  statement := nofun
  configuration h := ⟨.nil, .some (woven_configuration h)⟩
  arguments := Woven.arguments (by decide)
  call chain args args' r r' h hargs := by
    show Woven .double R (call chain args r) (call chain args' r')
    rw [call, call, h.method, h.operation]
    exact (Woven.intercalate hargs).around _ _
  imports hs := by
    cases hs
    exact ⟨fun _ => rfl, fun _ => rfl, Language.typesOf_of_alike⟩

end CSharp

namespace Java

theorem woven_statement {st st' : Statement} (h : st.Alike .double R st') :
    List.Forall₂ (Woven .double R) (statement st) (statement st') := by
  cases h with
  | same st => exact Woven.lines _
  | list name item hos =>
    exact .cons (.const _) (List.rel_map (fun _ _ ho => ho.write.around _ _) hos)
  | map name hes =>
    refine .cons (.const _) (List.rel_map ?_ hes)
    rintro ⟨key, o⟩ ⟨key', o'⟩ ⟨rfl, ho⟩
    exact ho.write.around _ _
  | assign owner member ho => exact .cons (ho.write.around _ _) .nil
  | scalar name htext | moment name htext => exact .cons (htext.around _ _) .nil

theorem woven_configuration (h : r.Alike R r') :
    Woven .double R (configuration r) (configuration r') := by
  refine .joined (List.rel_append (List.rel_map ?_ h.query) (List.rel_map ?_ h.headers))
  · intro o o' ho
    simp only [ho.name]
    exact (Dialect.woven_optionValue rfl _ ho.value).around _ _
  · intro x x' hx
    simp only [hx.name]
    exact Woven.around _ _ (.literal hx.value)

theorem weaves : language.Weaves .double R where
  text := rfl
  expresses := nofun
  declaration := nofun
  hint hs _ _ hn := by
    obtain rfl := BodyStyle.setter.inj hs
    cases hn <;> rfl
  statement hs _ _ _ hst := by
    obtain rfl := BodyStyle.setter.inj hs
    exact woven_statement hst
  configuration h := ⟨.nil, .some (woven_configuration h)⟩
  arguments := Woven.arguments (by decide)
  call chain args args' r r' h hargs := by
    show Woven .double R (call chain args r) (call chain args' r')
    rw [call, call, result, result, h.method, h.operation]
    exact (Woven.intercalate hargs).around _ _
  imports := nofun

end Java

namespace Python

theorem woven_queryParameters (h : r.Alike R r') :
    List.Forall₂ (Woven .double R) (queryParameters r) (queryParameters r') := by
  rw [queryParameters, queryParameters, h.segments, h.method]
  refine List.rel_append (List.rel_append (Woven.lines _) (Woven.indented ?_)) (Woven.lines _)
  refine List.rel_map ?_ h.query
  intro o o' ho
  simp only [ho.name]
  exact (Dialect.woven_optionValue rfl _ ho.value).around _ _

theorem woven_configuration (h : r.Alike R r') :
    List.Forall₂ (Woven .double R) (configuration r) (configuration r') := by
  rw [configuration, configuration, isEmpty_eq_of_forall₂ h.query]
  refine List.rel_append ?_ (List.rel_map ?_ h.headers)
  · split
    · exact Woven.lines _
    · exact List.rel_append (woven_queryParameters h) (Woven.lines _)
  · intro x x' hx
    simp only [hx.name]
    exact Woven.around _ _ (.literal hx.value)

theorem weaves : language.Weaves .double R where
  text := rfl
  expresses := nofun
  declaration hs _ _ _ _ := by
    obtain rfl := BodyStyle.initializer.inj hs
    rfl
  hint := nofun
  statement := nofun
  configuration h := ⟨woven_configuration h, .some (.const _)⟩
  arguments := Woven.arguments (by decide)
  call chain args args' r r' h hargs := by
    show Woven .double R (call chain args r) (call chain args' r')
    rw [call, call, h.method, h.operation]
    exact (Woven.intercalate hargs).around _ _
  imports hs := by
    cases hs
    refine ⟨fun h => ?_, fun hn => by cases hn <;> rfl, Language.typesOf_of_alike⟩
    show configurationImports _ = configurationImports _
    rw [configurationImports, configurationImports, h.segments, isEmpty_eq_of_forall₂ h.query]

end Python

namespace Go

theorem woven_statement {segments : List PathSegment} {st st' : Statement}
    (h : st.Alike .double R st') :
    List.Forall₂ (Woven .double R) (statement segments st) (statement segments st') := by
  cases h with
  | same st => exact Woven.lines _
  | list name item hos =>
    refine List.rel_append (List.rel_append (Woven.lines _) ?_) (Woven.lines _)
    exact List.rel_map (fun _ _ ho => .append (.const _) (.append ho.write (.const _))) hos
  | map name hes =>
    refine List.rel_append (List.rel_append (Woven.lines _) (List.rel_map ?_ hes)) (Woven.lines _)
    rintro ⟨key, o⟩ ⟨key', o'⟩ ⟨rfl, ho⟩
    exact .append (.const _) (ho.write.around _ _)
  | assign owner member ho => exact .cons (ho.write.around _ _) .nil
  | scalar name htext => exact .cons (.append (.const _) htext) .nil
  | moment name htext => exact .cons (htext.around _ _) .nil

theorem isList_of_alike {v v' : OptionValue} (h : v.Alike R v') : isList v = isList v' := by
  cases h <;> rfl

theorem woven_optionValue {v v' : OptionValue} (h : v.Alike R v') :
    Woven .double R (optionValue v) (optionValue v') := by
  cases h with
  | same v => exact .const _
  | text hv => exact .literal hv

theorem optionVariable_of_alike {o o' : QueryOption} (h : o.Alike R o') :
    optionVariable o = optionVariable o' := by
  rw [optionVariable, optionVariable, h.name]

theorem woven_optionVariables (h : r.Alike R r') :
    List.Forall₂ (fun p p' => p.1 = p'.1 ∧ Woven .double R p.2 p'.2) (optionVariables r)
      (optionVariables r') := by
  refine List.rel_map ?_ (List.rel_filter ?_ h.query)
  · intro o o' ho
    exact ⟨optionVariable_of_alike ho, woven_optionValue ho.value⟩
  · intro o o' ho
    simp only [isList_of_alike ho.value]

theorem woven_optionField {o o' : QueryOption} (h : o.Alike R o') :
    Woven .double R (optionField o) (optionField o') := by
  rw [optionField, optionField, optionVariable_of_alike h, isList_of_alike h.value, h.name]
  split
  · exact (woven_optionValue h.value).around _ _
  · exact .const _

theorem configurationClass_of_alike (h : r.Alike R r') :
    configurationClass r = configurationClass r' := by
  rw [configurationClass, configurationClass, h.segments, h.method]

theorem woven_headers (h : r.Alike R r') :
    List.Forall₂ (Woven .double R) (headers r) (headers r') := by
  rw [headers, headers, isEmpty_eq_of_forall₂ h.headers]
  split
  · exact .nil
  · refine List.rel_append (List.rel_append (Woven.lines _) (List.rel_map ?_ h.headers))
      (Woven.lines _)
    intro x x' hx
    simp only [hx.name]
    exact Woven.around _ _ (.literal hx.value)

theorem woven_queryParameters (h : r.Alike R r') :
    List.Forall₂ (Woven .double R) (queryParameters r) (queryParameters r') := by
  rw [queryParameters, queryParameters, isEmpty_eq_of_forall₂ h.query,
    configurationClass_of_alike h]
  split
  · exact .nil
  · simp only [List.isEmpty_map, isEmpty_eq_of_forall₂ (woven_optionVariables h)]
    refine List.rel_append (List.rel_append (List.rel_append (List.rel_append
      (List.rel_map ?_ (woven_optionVariables h)) (Woven.lines _)) (Woven.lines _))
      (List.rel_map ?_ h.query)) (Woven.lines _)
    · rintro ⟨name, value⟩ ⟨name', value'⟩ ⟨rfl, hvalue⟩
      exact .append (.const _) hvalue
    · exact fun _ _ ho => .append (.const _) (woven_optionField ho)

theorem woven_configuration (h : r.Alike R r') :
    List.Forall₂ (Woven .double R) (configuration r) (configuration r') := by
  rw [configuration, configuration, configurationClass_of_alike h,
    isEmpty_eq_of_forall₂ h.headers, isEmpty_eq_of_forall₂ h.query]
  refine List.rel_append (List.rel_append (List.rel_append (List.rel_append (woven_headers h)
    (woven_queryParameters h)) ?_) ?_) ?_
  · exact Woven.lines _
  · exact Woven.lines _
  · exact Woven.lines _

theorem weaves : language.Weaves .double R where
  text := rfl
  expresses := nofun
  declaration := nofun
  hint hs _ _ _ := by
    obtain rfl := BodyStyle.setter.inj hs
    rfl
  statement hs _ _ _ hst := by
    obtain rfl := BodyStyle.setter.inj hs
    exact woven_statement hst
  configuration h := ⟨woven_configuration h, .some (.const _)⟩
  arguments hbody hconf := by
    have hq : Quoting.double ≠ .word := by decide
    exact .cons (.const _) (List.rel_append (Woven.toList (Woven.filter hq hbody))
      (.cons (Woven.getD (Woven.filter hq hconf) _) .nil))
  call chain args args' r r' h hargs := by
    show Woven .double R (call chain args r) (call chain args' r')
    rw [call, call, h.method, h.operation]
    exact (Woven.intercalate hargs).around _ _
  imports hs := by
    cases hs
    refine ⟨fun h => ?_, fun hn => by cases hn <;> rfl, Language.typesOf_of_alike⟩
    show configurationImports _ = configurationImports _
    rw [configurationImports, configurationImports, h.segments, isEmpty_eq_of_forall₂ h.headers]

end Go

namespace TypeScript

theorem woven_configurationPart (name : String) {ss ss' : List String}
    (h : List.Forall₂ (Woven .double R) ss ss') :
    List.Forall₂ (Woven .double R) (configurationPart name ss) (configurationPart name ss') := by
  rw [configurationPart, configurationPart, isEmpty_eq_of_forall₂ h]
  split
  · exact .nil
  · have hentries : Woven .double R
        (String.intercalate ",\n" (ss.map fun e => Language.indented (Language.indented e)))
        (String.intercalate ",\n" (ss'.map fun e => Language.indented (Language.indented e))) :=
      .intercalate (List.rel_map (fun _ _ he => .append (.const _) (.append (.const _) he)) h)
    exact .cons (.intercalate (.cons (.const _) (.cons hentries (Woven.lines _)))) .nil

theorem woven_configuration (h : r.Alike R r') :
    Woven .double R (configuration r) (configuration r') := by
  have hquery : List.Forall₂ (Woven .double R) (r.query.map optionText)
      (r'.query.map optionText) := by
    refine List.rel_map ?_ h.query
    intro o o' ho
    rw [optionText, optionText, ho.name]
    exact .append (.const _) (Dialect.woven_optionValue rfl _ ho.value)
  have hheaders : List.Forall₂ (Woven .double R) (r.headers.map headerText)
      (r'.headers.map headerText) := by
    refine List.rel_map ?_ h.headers
    intro x x' hx
    rw [headerText, headerText, hx.name]
    exact .append (.const _) (.literal hx.value)
  exact Woven.around _ _ (.intercalate (List.rel_append
    (woven_configurationPart "queryParameters" hquery)
    (woven_configurationPart "headers" hheaders)))

theorem declaration_of_alike (name : String) {n n' : BodyNode} (h : n.Alike R n') :
    declaration name n = declaration name n' := by
  cases h with
  | object t derived _ => cases derived <;> rfl
  | _ => rfl

theorem types_eq (n : BodyNode) :
    types n = (declaredType? n).toList ++ n.walk.filterMap BodyNode.derivedType? := by
  refine congrArg₂ (· ++ ·) ?_ rfl
  cases n with
  | object t members derived => cases derived <;> rfl
  | _ => rfl

theorem derivedType?_of_alike {n n' : BodyNode} (h : n.Alike R n') :
    n.derivedType? = n'.derivedType? := by
  cases h with
  | object t derived _ => cases derived <;> rfl
  | _ => rfl

theorem declaredType?_of_alike {n n' : BodyNode} (h : n.Alike R n') :
    declaredType? n = declaredType? n' := by
  cases h with
  | object t derived _ => cases derived <;> rfl
  | _ => rfl

theorem types_of_alike {n n' : BodyNode} (h : n.Alike R n') : types n = types n' := by
  rw [types_eq, types_eq, declaredType?_of_alike h, List.filterMap_eq_flatMap_toList,
    List.filterMap_eq_flatMap_toList]
  exact congrArg _ (h.flatMap_walk fun hm => congrArg _ (derivedType?_of_alike hm))

theorem weaves : language.Weaves .double R where
  text := rfl
  expresses := nofun
  declaration hs name _ _ hn := by
    obtain rfl := BodyStyle.initializer.inj hs
    exact declaration_of_alike name hn
  hint := nofun
  statement := nofun
  configuration h := ⟨.nil, .some (woven_configuration h)⟩
  arguments := Woven.arguments (by decide)
  call chain args args' r r' h hargs := by
    show Woven .double R (call chain args r) (call chain args' r')
    rw [call, call, h.method, h.operation]
    exact (Woven.intercalate hargs).around _ _
  imports hs := by
    cases hs
    exact ⟨fun _ => rfl, fun _ => rfl, types_of_alike⟩

end TypeScript

namespace Php

theorem woven_statement {st st' : Statement} (h : st.Alike .single R st') :
    List.Forall₂ (Woven .single R) (statement st) (statement st') := by
  cases h with
  | same st => exact Woven.lines _
  | list name item hos =>
    rw [statement, statement, isEmpty_eq_of_forall₂ hos]
    split
    · exact Woven.lines _
    · refine List.rel_append (List.rel_append (Woven.lines _) ?_) (Woven.lines _)
      exact List.rel_map (fun _ _ ho => .append (.const _) (.append ho.write (.const _))) hos
  | map name hes =>
    refine List.rel_append (List.rel_append (Woven.lines _) (List.rel_map ?_ hes)) (Woven.lines _)
    rintro ⟨key, o⟩ ⟨key', o'⟩ ⟨rfl, ho⟩
    exact .append (.const _) (ho.write.around _ _)
  | assign owner member ho => exact .cons (ho.write.around _ _) .nil
  | scalar name htext | moment name htext => exact .cons (htext.around _ _) .nil

theorem configurationClass_of_alike (h : r.Alike R r') :
    configurationClass r = configurationClass r' := by
  rw [configurationClass, configurationClass, h.segments, h.method]

theorem woven_headers (h : r.Alike R r') :
    List.Forall₂ (Woven .single R) (headers r) (headers r') := by
  rw [headers, headers, isEmpty_eq_of_forall₂ h.headers]
  split
  · exact .nil
  · refine List.rel_append (List.rel_append (Woven.lines _) (List.rel_map ?_ h.headers))
      (Woven.lines _)
    intro x x' hx
    simp only [hx.name]
    exact .append (.const _) (Woven.around _ _ (.literal hx.value))

theorem woven_queryParameters (h : r.Alike R r') :
    List.Forall₂ (Woven .single R) (queryParameters r) (queryParameters r') := by
  rw [queryParameters, queryParameters, isEmpty_eq_of_forall₂ h.query,
    configurationClass_of_alike h]
  split
  · exact .nil
  · refine List.rel_append (List.rel_append (Woven.lines _) (List.rel_map ?_ h.query))
      (Woven.lines _)
    intro o o' ho
    simp only [ho.name]
    exact (Dialect.woven_optionValue rfl _ ho.value).around _ _

theorem weaves : language.Weaves .single R where
  text := rfl
  expresses := nofun
  declaration := nofun
  hint hs _ _ _ := by
    obtain rfl := BodyStyle.setter.inj hs
    rfl
  statement hs _ _ _ hst := by
    obtain rfl := BodyStyle.setter.inj hs
    exact woven_statement hst
  configuration {r r'} h := by
    refine ⟨?_, .some (.const _)⟩
    show List.Forall₂ _ (configuration r) (configuration r')
    rw [configuration, configuration, configurationClass_of_alike h]
    exact List.rel_append (List.rel_append (Woven.lines _) (woven_headers h))
      (woven_queryParameters h)
  arguments := Woven.arguments (by decide)
  call chain args args' r r' h hargs := by
    show Woven .single R (call chain args r) (call chain args' r')
    rw [call, call, h.method, h.operation]
    exact (Woven.intercalate hargs).around _ _
  imports hs := by
    cases hs
    refine ⟨fun h => ?_, fun hn => by cases hn <;> rfl, Language.typesOf_of_alike⟩
    simp only [configurationClass_of_alike h, h.segments]

end Php

namespace Language

variable {l : Language}

/-- That texts are the same for the imports of a language. Where there are any, a
scan has to find the same names of models in the literals. -/
def SameTexts (l : Language) (v v' : String) : Prop :=
  l.imports.isSome = true → SameNames l.quoting v v'

/-- Every language but that of commands puts texts into literals. -/
theorem weaves (hl : l ∈ all) (hcommand : l ≠ CommandLine.language) :
    l.quoting ≠ .word ∧ l.Weaves l.quoting R := by
  have hdouble : CSharp.language.quoting = .double ∧ Java.language.quoting = .double ∧
      Python.language.quoting = .double ∧ Go.language.quoting = .double ∧
      TypeScript.language.quoting = .double := by decide
  have hsingle : Php.language.quoting = .single := by decide
  simp only [all, List.mem_cons, List.not_mem_nil, or_false] at hl
  rcases hl with rfl | rfl | rfl | rfl | rfl | rfl | rfl
  · rw [hdouble.1]
    exact ⟨by decide, CSharp.weaves⟩
  · rw [hdouble.2.1]
    exact ⟨by decide, Java.weaves⟩
  · rw [hdouble.2.2.1]
    exact ⟨by decide, Python.weaves⟩
  · rw [hdouble.2.2.2.1]
    exact ⟨by decide, Go.weaves⟩
  · rw [hdouble.2.2.2.2]
    exact ⟨by decide, TypeScript.weaves⟩
  · rw [hsingle]
    exact ⟨by decide, Php.weaves⟩
  · exact absurd rfl hcommand

end Language

/-! ## Snippets -/

section

variable {l : Language} {q : Quoting} {body body' : Option BodyGraph} {text text' : String}

/-- The imports are the same for texts that are woven from the same code. -/
theorem Imports.resolve_of_alike (hl : l.Weaves q R) (hq : q ≠ .word)
    (hR : l.imports.isSome = true → ∀ v v', R v v' → SameNames q v v') (h : r.Alike R r')
    (hbody : Option.Rel (BodyGraph.Alike R) body body') (htext : Woven q R text text') :
    resolve r l body (some text) = resolve r' l body' (some text') := by
  unfold resolve
  cases himports : l.imports with
  | none => rfl
  | some s =>
    have hs := hl.imports himports
    have hnames := htext.typeNames hq (hR (by rw [himports]; rfl))
    have hnamed : typeNamed? r = typeNamed? r' := by
      funext name
      rw [typeNamed?, typeNamed?, h.index]
    have hknown : (body.map fun g => s.types g.root) = body'.map fun g => s.types g.root := by
      cases hbody with
      | none => rfl
      | some hg => exact congrArg some (hs.types hg)
    have hmodels : body.map (ofBody s r) = body'.map (ofBody s r') := by
      cases hbody with
      | none => rfl
      | @some g g' hg =>
        have hliterals : g.root.walk.flatMap s.literal = g'.root.walk.flatMap s.literal :=
          BodyNode.Alike.flatMap_walk hs.literal hg
        show some (ofBody s r g) = some (ofBody s r' g')
        rw [ofBody, ofBody, hs.types hg, hliterals, h.segments]
    simp only [ofText, hnames, hnamed, hknown, hmodels, h.segments, h.hasConfiguration,
      hs.configuration h]

namespace Snippet

theorem alike_bodyPart (hl : l.Weaves q R) (h : r.Alike R r')
    (hbody : Option.Rel (BodyGraph.Alike R) body body') :
    Outcome.Related
      (fun p p' => List.Forall₂ (Woven q R) p.1 p'.1 ∧ Option.Rel (Woven q R) p.2 p'.2)
      (bodyPart l r body) (bodyPart l r' body') := by
  cases hbody with
  | none =>
    rw [bodyPart, bodyPart, h.operation, h.method]
    refine .ok ⟨.nil, ?_⟩
    split
    · exact .some (.const _)
    · exact .none
  | some hg => exact hl.bodyCode h.segments hg

/-- **The snippets for alike requests** are woven from the same code. -/
theorem alike_write (hl : l.Weaves q R) (h : r.Alike R r')
    (hbody : Option.Rel (BodyGraph.Alike R) body body') (imports : List String) :
    Outcome.Related (Woven q R) (write l r body imports) (write l r' body' imports) := by
  have hconf : List.Forall₂ (Woven q R)
        (if r.hasConfiguration then l.configuration r else ([], none)).1
        (if r'.hasConfiguration then l.configuration r' else ([], none)).1 ∧
      Option.Rel (Woven q R) (if r.hasConfiguration then l.configuration r else ([], none)).2
        (if r'.hasConfiguration then l.configuration r' else ([], none)).2 := by
    rw [h.hasConfiguration]
    split
    · exact hl.configuration h
    · exact ⟨.nil, .none⟩
  refine (alike_bodyPart hl h hbody).bind ?_
  rintro ⟨lines, argument⟩ ⟨lines', argument'⟩ ⟨hlines, hargument⟩
  have hcall := hl.call (l.dialect.chain r.segments) h (hl.arguments hargument hconf.2)
  rw [← h.segments]
  exact .ok (Woven.ofBlocks (.cons (Woven.lines _) (.cons (Woven.lines _) (.cons hlines
    (.cons hconf.1 (.cons (.cons hcall .nil) .nil))))))

/-- The imports of the snippet for a request. -/
def importsOf (l : Language) (r : ResolvedRequest) : Outcome (List String) := do
  let body ← (Body.build r).outcome
  let draft ← write l r body []
  Imports.resolve r l body (some draft)

/-- A snippet is written with its imports. -/
theorem generate_eq (l : Language) (r : ResolvedRequest) :
    generate l r = (Body.build r).outcome >>= fun body =>
      importsOf l r >>= fun imports => write l r body imports := by
  rw [generate, importsOf]
  cases (Body.build r).outcome with
  | error e => rfl
  | ok body =>
    show (write l r body [] >>= _) = ((write l r body [] >>= _) >>= _)
    cases write l r body [] <;> rfl

theorem importsOf_of_alike (hl : l ∈ Language.all) (h : r.Alike l.SameTexts r') :
    importsOf l r = importsOf l r' := by
  apply Outcome.Related.eq
  by_cases hcommand : l = CommandLine.language
  · -- commands have no imports
    subst hcommand
    refine h.body.bind fun body body' _ => ?_
    rw [CommandLine.write_command, CommandLine.write_command]
    exact .ok rfl
  · obtain ⟨hq, hw⟩ := Language.weaves (R := l.SameTexts) hl hcommand
    refine h.body.bind fun body body' hbody => (alike_write hw h hbody []).bind ?_
    intro draft draft' hdraft
    rw [Imports.resolve_of_alike hw hq (fun himports _ _ hv => hv himports) h hbody hdraft]
    exact .refl (fun _ => rfl) _

/-- Snippets for alike requests have the same blocks up to their imports, when
they are written with the same ones. -/
theorem alike_blocks (hl : l ∈ Language.all) (h : r.Alike l.SameTexts r')
    (hbody : Option.Rel (BodyGraph.Alike l.SameTexts) body body') (imports : List String) :
    Outcome.Related (fun text text' => ∃ code code',
        text = ofBlocks (l.prologue :: imports :: code) ∧
          text' = ofBlocks (l.prologue :: imports :: code'))
      (write l r body imports) (write l r' body' imports) := by
  by_cases hcommand : l = CommandLine.language
  · subst hcommand
    rw [CommandLine.write_command, CommandLine.write_command]
    exact .ok ⟨_, _, rfl, rfl⟩
  · obtain ⟨-, hw⟩ := Language.weaves (R := l.SameTexts) hl hcommand
    refine (alike_write hw h hbody imports).imp fun text text' _ htext htext' => ?_
    obtain ⟨part, code, -, rfl⟩ := write_eq_ok htext
    obtain ⟨part', code', -, rfl⟩ := write_eq_ok htext'
    exact ⟨part.1 :: code, part'.1 :: code', rfl, rfl⟩

/-- **The contents of strings do not matter to imports**, unless a scan finds
other names of models in them. For requests that are the same but for the texts
of string nodes, query options and headers, every language either fails with the
same fault or imports the same. Where it imports nothing ever, the texts may be
any; elsewhere the names that a scan finds in their literals have to be the
same. -/
theorem generate_alike (hl : l ∈ Language.all) (h : r.Alike l.SameTexts r') :
    importsOf l r = importsOf l r' ∧
      Outcome.Related (fun text text' => ∃ imports code code', importsOf l r = .ok imports ∧
          text = ofBlocks (l.prologue :: imports :: code) ∧
            text' = ofBlocks (l.prologue :: imports :: code'))
        (generate l r) (generate l r') := by
  have himports := importsOf_of_alike hl h
  refine ⟨himports, ?_⟩
  rw [generate_eq, generate_eq, ← himports]
  refine h.body.bind fun body body' hbody => ?_
  cases importsOf l r with
  | error e => exact .error e
  | ok imports =>
    refine (alike_blocks hl h hbody imports).imp ?_
    rintro text text' ⟨code, code', hcode⟩ - -
    exact ⟨imports, code, code', rfl, hcode⟩

/-- A request with a note in its body, its query and its headers. -/
def noteRequest (note : String) (body : List Char) : ResolvedRequest where
  method := .post
  version := "v1.0"
  path := "/things"
  template := "/things"
  segments := [PathSegment.literal "things"]
  operation :=
    { method := .post
      requestSchema := some
        { kind := .object, title := some "thing", properties := [("note", { kind := .string })] } }
  query := [{ name := "search", rawName := "$search", value := .text note }]
  headers := [⟨"X-Note", note⟩]
  contentType := none
  body := some (Utf8.encode body)
  index := TypeScript.partIndex

/-- The frame of the body. -/
def noteFrame : Body.Frame :=
  ⟨{ name := "Thing", synthesized := true }, false, true, [("note", { kind := .string })]⟩

/-- A note as a text. -/
def fixText : List Char :=
  "\x7b\"note\":\"fix\"\x7d".toList

/-- Another note as a text. -/
def callText : List Char :=
  "\x7b\"note\":\"call\"\x7d".toList

set_option maxRecDepth 10000 in
theorem read_fix : Json.read (String.ofList fixText) = .ok (.obj [("note", .str "fix")]) := by
  cbv

set_option maxRecDepth 10000 in
theorem read_call : Json.read (String.ofList callText) = .ok (.obj [("note", .str "call")]) := by
  cbv

theorem value_note (note : String) : (Body.value TypeScript.partIndex (noteFrame.shape? "note")
    noteFrame.near (noteFrame.entryName "note") (.str note)).outcome = .ok (.string note) := by
  rw [Body.value]
  rfl

theorem sameTexts_note : TypeScript.language.SameTexts "fix" "call" := by
  intro _
  refine sameNames_of_lower ?_
  have hlower : ((TypeScript.language.quoting.write "fix").toList ++
      (TypeScript.language.quoting.write "call").toList).any Naming.isUpper = false := rfl
  simpa only [List.any_eq_false, Bool.not_eq_true] using hlower

theorem sentAlike_note :
    Body.SentAlike TypeScript.language.SameTexts (noteRequest "fix" fixText)
      (noteRequest "call" callText) := by
  refine .object (Body.sentJson?_of_read rfl rfl rfl read_fix)
    (Body.sentJson?_of_read rfl rfl rfl read_call)
    (f := noteFrame) rfl rfl ?_
  exact .member (by decide) (.text (value_note "fix") (value_note "call") sameTexts_note) (.nil _)

theorem alike_note : (noteRequest "fix" fixText).Alike TypeScript.language.SameTexts
    (noteRequest "call" callText) where
  method := rfl
  segments := rfl
  operation := rfl
  index := rfl
  query := .cons ⟨rfl, .text sameTexts_note⟩ .nil
  headers := .cons ⟨rfl, sameTexts_note⟩ .nil
  body := Body.alike_build rfl rfl rfl sentAlike_note

/-- The graph of the body. -/
def noteGraph : BodyGraph where
  root := .object { name := "Thing", synthesized := true } [("note", .string "fix")] false
  typeName := some "Thing"

theorem outcome_build_note :
    (Body.build (noteRequest "fix" fixText)).outcome = .ok (some noteGraph) := by
  have hframe : (Body.rootFrame TypeScript.partIndex (noteRequest "fix" fixText)
      [("note", .str "fix")]).outcome = .ok noteFrame := rfl
  have hplaced : (Body.placeAll TypeScript.partIndex noteFrame [("note", .str "fix")]).outcome =
      .ok [⟨"note", .string "fix", false⟩] := by
    rw [Body.outcome_placeAll_member (by decide) (by decide), value_note, Body.placeAll]
    rfl
  have hgraph : (Body.ofJson TypeScript.partIndex (noteRequest "fix" fixText)
      (.obj [("note", .str "fix")])).outcome = .ok noteGraph := by
    rw [Body.ofJson]
    exact Noted.outcome_bind_eq_ok.2 ⟨noteFrame, hframe,
      Noted.outcome_bind_eq_ok.2 ⟨_, hplaced, rfl⟩⟩
  have hindex : (noteRequest "fix" fixText).index = TypeScript.partIndex := rfl
  rw [Body.outcome_build (Body.sentJson?_of_read rfl rfl rfl read_fix), hindex, hgraph]
  rfl

theorem exists_generate_note :
    ∃ text, generate TypeScript.language (noteRequest "fix" fixText) = .ok text := by
  have hwrite (imports : List String) : ∃ text, write TypeScript.language
      (noteRequest "fix" fixText) (some noteGraph) imports = .ok text := ⟨_, rfl⟩
  obtain ⟨draft, hdraft⟩ := hwrite []
  obtain ⟨imports, himports⟩ := Imports.exists_resolve (r := noteRequest "fix" fixText)
    TypeScript.language (some noteGraph) (some draft) fun name =>
      TypeScript.exists_describeType_part name none
  obtain ⟨text, htext⟩ := hwrite imports
  exact ⟨text, Outcome.bind_eq_ok.2 ⟨_, outcome_build_note, Outcome.bind_eq_ok.2
    ⟨draft, hdraft, Outcome.bind_eq_ok.2 ⟨imports, himports, htext⟩⟩⟩⟩

/-- Another note in the body, the query and a header leaves the imports as they
are. -/
theorem generate_alike_note : ∃ text text' imports code code',
    generate TypeScript.language (noteRequest "fix" fixText) = .ok text ∧
    generate TypeScript.language (noteRequest "call" callText) = .ok text' ∧
    text = ofBlocks (TypeScript.language.prologue :: imports :: code) ∧
    text' = ofBlocks (TypeScript.language.prologue :: imports :: code') := by
  obtain ⟨text, htext⟩ := exists_generate_note
  have halike := (generate_alike (by simp [Language.all]) alike_note).2
  rw [htext] at halike
  generalize hother : generate TypeScript.language (noteRequest "call" callText) = other at halike
  cases halike with
  | @ok _ text' hblocks =>
    obtain ⟨imports, code, code', -, hcode⟩ := hblocks
    exact ⟨text, text', imports, code, code', htext, rfl, hcode⟩

end Snippet

end

end ApiSnippets
