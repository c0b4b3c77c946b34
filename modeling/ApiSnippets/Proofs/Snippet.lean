import ApiSnippets.Snippet
/-!
# What a snippet reads of a request

A resolved request keeps the path that was asked for, with the values that
stand for placeholders in it. No snippet reads it: neither the body, nor what a
language writes, nor the imports depend on it (`generate_path`).
-/

namespace ApiSnippets

variable {l : Language} (r : ResolvedRequest) (path : String)

/-! ## Bodies -/

namespace Body

theorem siblingBody?_path (ix : Index) (action : String) (members : List (String × Json)) :
    siblingBody? ix { r with path := path } action members = siblingBody? ix r action members := by
  simp only [siblingBody?]

theorem synthesizedFrame_path (ix : Index) (shape : Option Shape) (members : List (String × Json)) :
    synthesizedFrame ix { r with path := path } shape members =
      synthesizedFrame ix r shape members := by
  simp only [synthesizedFrame, siblingBody?_path]

theorem rootFrame_path (ix : Index) (members : List (String × Json)) :
    rootFrame ix { r with path := path } members = rootFrame ix r members := by
  simp only [rootFrame, synthesizedFrame_path]

theorem ofJson_path (ix : Index) (v : Json) :
    ofJson ix { r with path := path } v = ofJson ix r v := by
  cases v <;> simp only [ofJson, rootFrame_path]

theorem build_path : build { r with path := path } = build r := by
  simp only [build, ResolvedRequest.payload?, ofJson_path]

end Body

/-! ## Languages -/

/-- That what a language writes for a request does not depend on its path. -/
structure Language.IgnoresPath (l : Language) : Prop where
  configuration : ∀ r path, l.configuration { r with path := path } = l.configuration r
  call : ∀ chain arguments r path,
    l.call chain arguments { r with path := path } = l.call chain arguments r
  bodyCode : ∀ g r path, l.bodyCode g { r with path := path } = l.bodyCode g r
  imports : ∀ s, l.imports = some s →
    ∀ r path, s.configuration { r with path := path } = s.configuration r

theorem Language.ignoresPath (hl : l ∈ Language.all) : l.IgnoresPath := by
  have hcases : l = CSharp.language ∨ l = Java.language ∨ l = Python.language ∨ l = Go.language ∨
      l = TypeScript.language ∨ l = Php.language ∨ l = CommandLine.language := by
    simpa [Language.all] using hl
  rcases hcases with rfl | rfl | rfl | rfl | rfl | rfl | rfl
  all_goals
    refine ⟨fun _ _ => rfl, fun _ _ _ _ => rfl, fun _ _ _ => rfl, ?_⟩
    rintro s ⟨⟩
  all_goals exact fun _ _ => rfl

theorem Imports.resolve_path (h : l.IgnoresPath) (body : Option BodyGraph) (text : Option String) :
    Imports.resolve { r with path := path } l body text = Imports.resolve r l body text := by
  unfold Imports.resolve
  cases himports : l.imports with
  | none => rfl
  | some s =>
    simp only [h.imports s himports r path]
    rfl

namespace Snippet

theorem write_path (h : l.IgnoresPath) (body : Option BodyGraph) (imports : List String) :
    write l { r with path := path } body imports = write l r body imports := by
  have hbody : bodyPart l { r with path := path } body = bodyPart l r body := by
    cases body with
    | none => rfl
    | some g => exact h.bodyCode g r path
  have hconfigured : ResolvedRequest.hasConfiguration { r with path := path } =
      r.hasConfiguration := rfl
  simp only [write, hbody, hconfigured, h.configuration, h.call]

/-- **No snippet reads the path of its request**, in any language. -/
theorem generate_path (hl : l ∈ Language.all) :
    generate l { r with path := path } = generate l r := by
  have h := Language.ignoresPath hl
  simp only [generate, Body.build_path, write_path r path h, Imports.resolve_path r path h]

end Snippet

end ApiSnippets
