import ApiSnippets.Code.Package
import ApiSnippets.Proofs.Recasing
/-!
# One package path, written twice

The names of nested builders repeat the package of a path in Pascal case, and
are cut from its segments a second time. Below the first segment the two agree
(`Package.nestedParts_eq`). The first one is read in its own way: its type cast
is left out, and where nothing is below it its name is recased from lower case.
So the names follow from the package for a path of more segments exactly when
the first one has no cast, and for a single segment exactly when its name keeps
its words in lower case (`Package.nested_follows_parts`).
-/

namespace ApiSnippets

namespace Package

variable {s first : PathSegment} {name : String} {written : Option String}
  {segments rest : List PathSegment}

/-- The class name of the builder of a path, without its ending. -/
def ownName (segments : List PathSegment) : String :=
  (segments.getLast?.map builderBase).getD ""

theorem builder_eq (segments : List PathSegment) :
    builder segments = ownName segments ++ builderEnding := rfl

/-- The names that follow from the package of a path: one for each part below
the first and, where there is none, that of the builder. -/
def namesBelow (segments : List PathSegment) : List String :=
  match (parts segments).tail with
  | [] => [ownName segments]
  | part :: more => (part :: more).map Naming.pascal

/-! ## Below the first segment -/

/-- **A later segment adds the names of its parts**, unless it is the signed-in
user. -/
theorem nestedParts_eq (h : ∀ written, s.role ≠ .literal me written) :
    nestedParts s = (segmentParts s).map Naming.pascal := by
  have hcast : ((castOf? s).map fun t => "Graph" ++ castClass t).toList =
      ((castOf? s).map fun t => "graph" ++ castClass t).toList.map Naming.pascal := by
    cases castOf? s with
    | none => rfl
    | some t => simp [castClass, Naming.pascal_graph]
  have hitem : Naming.pascal "item" = "Item" ∧ Naming.pascal "ref" = "Ref" := by decide +kernel
  rw [nestedParts, segmentParts, List.map_append, ← hcast, ← List.singleton_append]
  congr 1
  cases hrole : s.role with
  | literal name written =>
    have hname : name ≠ me := fun hme => h written (hme ▸ hrole)
    simp [roleParts, hname, Naming.pascal_camel]
  | alternate collection key value => simp [roleParts, Naming.pascal_alternateKeyAccessor]
  | keyed collection key => simp [roleParts, hitem]
  | parameter name => simp [roleParts, hitem]
  | action name arguments => simp [roleParts, Naming.pascal_camel]
  | function name arguments => simp [roleParts, Naming.pascal_camel]
  | reference => simp [roleParts, hitem]

theorem flatMap_nestedParts (h : ∀ s ∈ rest, ∀ written, s.role ≠ .literal me written) :
    rest.flatMap nestedParts = (parts rest).map Naming.pascal := by
  rw [parts, List.map_flatMap]
  exact List.flatMap_congr fun s hs => nestedParts_eq (h s hs)

theorem parts_ne_nil (h : rest ≠ []) : parts rest ≠ [] := by
  obtain ⟨s, rest, rfl⟩ := List.exists_cons_of_ne_nil h
  have hrole : roleParts s.role ≠ [] := by
    cases s.role with
    | literal name written =>
      rw [roleParts]
      split <;> exact List.cons_ne_nil _ _
    | _ => exact List.cons_ne_nil _ _
  rw [parts, List.flatMap_cons, segmentParts, List.append_assoc]
  exact List.append_ne_nil_of_left_ne_nil hrole _

/-! ## The first segment -/

/-- The names of a path that begins with a property. -/
theorem nested_of_literal (hfirst : first.role = .literal name written) (hname : name ≠ me)
    (hrest : ∀ s ∈ rest, ∀ written, s.role ≠ .literal me written) :
    nested (first :: rest) = (Text.lower name,
      if rest = [] then [Naming.pascal (Text.lower name)]
      else (parts rest).map Naming.pascal) := by
  have hpart : firstPart first = (Text.lower name, []) := by
    rw [firstPart, hfirst]
    exact if_neg hname
  rw [nested, hpart]
  simp only [List.nil_append, flatMap_nestedParts hrest]
  by_cases hempty : rest = []
  · subst hempty
    rfl
  · have hne : ((parts rest).map Naming.pascal).isEmpty = false := by
      simpa using parts_ne_nil hempty
    simp [hne, hempty]

/-- The package of a path that begins with a property. -/
theorem parts_of_literal (rest : List PathSegment) (hfirst : first.role = .literal name written)
    (hname : name ≠ me) : parts (first :: rest) = Naming.camel name ::
      (((castOf? first).map fun t => "graph" ++ castClass t).toList ++ parts rest) := by
  have hrole : roleParts first.role = [Naming.camel name] := by
    rw [hfirst, roleParts, if_neg hname]
  rw [parts, List.flatMap_cons, segmentParts, hrole, parts]
  rfl

theorem namesBelow_singleton (hfirst : first.role = .literal name written) (hname : name ≠ me) :
    namesBelow [first] = [builderBase first] := by
  have hparts := parts_of_literal [] hfirst hname
  cases hcast : castOf? first with
  | none =>
    rw [namesBelow, hparts, hcast]
    rfl
  | some t =>
    rw [namesBelow, hparts, hcast, builderBase, hcast]
    simp [parts, castClass, Naming.pascal_graph]

theorem namesBelow_of_ne_nil (hfirst : first.role = .literal name written) (hname : name ≠ me)
    (hrest : rest ≠ []) : namesBelow (first :: rest) =
      ((castOf? first).map fun t => "Graph" ++ castClass t).toList ++
        (parts rest).map Naming.pascal := by
  have hparts := parts_of_literal rest hfirst hname
  obtain ⟨part, more, hmore⟩ := List.exists_cons_of_ne_nil (parts_ne_nil hrest)
  cases hcast : castOf? first with
  | none =>
    rw [namesBelow, hparts, hcast, hmore]
    rfl
  | some t =>
    rw [namesBelow, hparts, hcast, hmore]
    simp [castClass, Naming.pascal_graph]

/-- **When the names of nested builders follow from the package.** A path that
begins with a property and goes on takes the names of all its parts below that
property, but for the cast of the property itself; so they follow when there is
no such cast. A path of one property takes the name of the property in lower
case, so its name follows when that is the builder's: for a name of letters and
digits without a cast, when it has no capital letter behind the first one. -/
theorem nested_follows_parts (first : PathSegment) (name : String) (written : Option String)
    (rest : List PathSegment) (hfirst : first.role = .literal name written) (hname : name ≠ me)
    (hrest : ∀ s ∈ rest, ∀ written, s.role ≠ .literal me written) :
    nested (first :: rest) = (Text.lower name,
        if rest = [] then [Naming.pascal (Text.lower name)]
        else (parts rest).map Naming.pascal) ∧
      (nested (first :: rest) = (Text.lower name, namesBelow (first :: rest)) ↔
        if rest = [] then Naming.pascal (Text.lower name) = builderBase first
        else castOf? first = none) ∧
      builder [first] = builderBase first ++ builderEnding ∧
      (castOf? first = none → (∀ c ∈ name.toList, Naming.isWordChar c = true) →
        (Naming.pascal (Text.lower name) = builderBase first ↔
          ∀ c ∈ name.toList.tail, Naming.isUpper c = false)) := by
  have hnested := nested_of_literal hfirst hname hrest
  refine ⟨hnested, ?_, builder_eq [first], ?_⟩
  · rw [hnested]
    by_cases hempty : rest = []
    · subst hempty
      simp [namesBelow_singleton hfirst hname]
    · rw [if_neg hempty, if_neg hempty, namesBelow_of_ne_nil hfirst hname hempty]
      simp
  · intro hcast hletters
    have hbase : builderBase first = Naming.pascal name := by
      rw [builderBase, hcast, hfirst]
      exact if_neg hname
    rw [hbase, Naming.pascal_lower_eq_iff hletters]

/-- A property with two words and a type cast. -/
def pagesSegment (cast : Option String) : PathSegment :=
  ⟨.literal "sitePages" none, cast⟩

theorem nested_follows_parts_pages :
    nested [pagesSegment none] = ("sitepages", ["Sitepages"]) ∧
      nested [pagesSegment none] ≠ ("sitepages", namesBelow [pagesSegment none]) ∧
      nested [pagesSegment (some "ns.part"), .literal "items"] = ("sitepages", ["Items"]) ∧
      nested [pagesSegment (some "ns.part"), .literal "items"] ≠
        ("sitepages", namesBelow [pagesSegment (some "ns.part"), .literal "items"]) := by
  have hlower : Text.lower "sitePages" = "sitepages" := by rfl
  have hitems : ∀ s ∈ [PathSegment.literal "items"], ∀ written, s.role ≠ .literal me written := by
    intro s hs written
    rw [List.mem_singleton.1 hs]
    simp [PathSegment.literal, me]
  obtain ⟨halone, hfollows, -, hwords⟩ :=
    nested_follows_parts (pagesSegment none) "sitePages" none []
    rfl (by decide) (by simp)
  obtain ⟨hcast, hfollows', -⟩ := nested_follows_parts (pagesSegment (some "ns.part")) "sitePages"
    none [.literal "items"] rfl (by decide) hitems
  rw [hlower] at halone hfollows hwords hcast hfollows'
  have hpascal : Naming.pascal "sitepages" = "Sitepages" ∧
      (parts [.literal "items"]).map Naming.pascal = ["Items"] := by decide +kernel
  rw [if_pos rfl, hpascal.1] at halone
  rw [if_neg (List.cons_ne_nil _ _), hpascal.2] at hcast
  rw [if_pos rfl] at hfollows
  rw [if_neg (List.cons_ne_nil _ _)] at hfollows'
  refine ⟨halone, fun h => ?_, hcast, fun h => ?_⟩
  · -- the second word of the name begins with a capital letter
    have hletters : ∀ c ∈ "sitePages".toList, Naming.isWordChar c = true :=
      Text.forall_of_all (by decide)
    have hpages := (hwords rfl hletters).1 (hfollows.1 h) 'P' (by decide)
    exact absurd hpages (by decide)
  · exact absurd (hfollows'.1 h) (by decide)

end Package

end ApiSnippets
