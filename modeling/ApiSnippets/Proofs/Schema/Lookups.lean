import Mathlib.Data.List.Forall2
import ApiSnippets.Schema.Index
import ApiSnippets.Proofs.Outcome
/-!
# What looking up a type can fail with

A document may be broken in many ways, and looking up a type in it fails when
a reference or a name in it is. It never fails as a value does that is not of
its declared shape: that a request disagrees with its schema is found out by
comparing the two, not by reading the schema (`describeType_noMismatch`).
-/

namespace ApiSnippets

namespace Outcome

variable {α β : Type}

/-- That an outcome is no disagreement between a value and its shape. -/
def NoMismatch (x : Outcome α) : Prop :=
  ∀ cause, x ≠ .error (.shape cause)

theorem NoMismatch.ok (a : α) : NoMismatch (.ok a) := by
  intro cause h
  cases h

theorem NoMismatch.bind {x : Outcome α} {f : α → Outcome β} (hx : x.NoMismatch)
    (hf : ∀ a, (f a).NoMismatch) : (x >>= f).NoMismatch := by
  intro cause h
  rcases bind_eq_error.1 h with h | ⟨a, -, h⟩
  · exact hx cause h
  · exact hf a cause h

theorem NoMismatch.map {x : Outcome α} {f : α → β} (hx : x.NoMismatch) :
    NoMismatch (x.map f) := by
  intro cause h
  exact hx cause (map_eq_error.1 h)

theorem NoMismatch.mapMem {xs : List α} {f : (a : α) → a ∈ xs → Outcome β}
    (h : ∀ a ha, (f a ha).NoMismatch) : (Outcome.mapMem xs f).NoMismatch := by
  induction xs with
  | nil => exact .ok []
  | cons x xs ih =>
    exact .bind (h x List.mem_cons_self) fun y => .bind (ih fun a ha => h a _) fun ys => .ok _

theorem NoMismatch.mapAll {f : α → Outcome β} (h : ∀ a, (f a).NoMismatch) (xs : List α) :
    (Outcome.mapAll f xs).NoMismatch := by
  rw [← mapMem_eq]
  exact .mapMem fun a _ => h a

end Outcome

open Outcome

/-! ## Documents -/

theorem Doc.elements_noMismatch (v : Doc) : v.elements.NoMismatch := by
  unfold Doc.elements
  split <;> (intro cause h; cases h)

theorem Doc.elementsUnder_noMismatch (es : List (Scalar × Doc)) (names : List String) :
    (Doc.elementsUnder es names).NoMismatch := by
  induction names with
  | nil => exact .ok []
  | cons name names ih =>
    rw [Doc.elementsUnder]
    cases Doc.field? name es with
    | none => exact .bind (.ok _) fun first => .bind ih fun more => .ok _
    | some v => exact .bind v.elements_noMismatch fun first => .bind ih fun more => .ok _

namespace Pointer

theorem refDefect_ne_shape (v : Doc) (cause : ShapeFault) : refDefect v ≠ .shape cause := by
  unfold refDefect
  split <;> (intro h; cases h)

theorem refText_noMismatch (v : Doc) : (refText v).NoMismatch := by
  unfold refText
  split
  · exact .ok _
  · intro cause h
    exact refDefect_ne_shape _ cause (Except.error.inj h)

theorem step_noMismatch (ref : String) (current : Doc) (segment : List Char) :
    (step ref current segment).NoMismatch := by
  intro cause h
  unfold step at h
  dsimp only at h
  split at h
  · split at h <;> cases h
  · split at h <;> cases h
  · cases h

theorem follow_noMismatch (ref : String) (current : Doc) (segments : List (List Char)) :
    (follow ref current segments).NoMismatch := by
  induction segments generalizing current with
  | nil => exact .ok _
  | cons segment segments ih => exact .bind (step_noMismatch _ _ _) fun next => ih next

theorem resolve_noMismatch (ref : String) (root : Doc) : (resolve ref root).NoMismatch := by
  unfold resolve
  split
  · exact follow_noMismatch _ _ _
  · intro cause h
    cases h

end Pointer

/-! ## Shapes -/

namespace Schema

theorem enumInfo_noMismatch (es : Fields) : (enumInfo es).NoMismatch := by
  unfold enumInfo
  cases Doc.field? "enum" es with
  | none => exact .bind (.ok _) fun values => .ok _
  | some v => exact .bind v.elements_noMismatch fun values => .ok _

theorem enumShape_noMismatch (typeName : Option String) (nullable : Bool) (es : Fields) :
    (enumShape typeName nullable es).NoMismatch :=
  .bind (enumInfo_noMismatch es) fun _ => .ok _

theorem primitiveKind_noMismatch (es : Fields) : (primitiveKind es).NoMismatch := by
  intro cause h
  unfold primitiveKind at h
  split at h
  iterate 4 cases h
  split at h <;> cases h

theorem namedProperties_noMismatch (ps : List (Scalar × Shape)) :
    (namedProperties ps).NoMismatch := by
  intro cause h
  unfold namedProperties at h
  split at h <;> cases h

/-- Reading a schema never disagrees with a value. -/
theorem shapeFrom_noMismatch (root schema : Doc) (seen : List String) :
    (shapeFrom root schema seen).NoMismatch := by
  fun_induction shapeFrom root schema seen with
  | case1 seen es r hr hs e ht =>
    intro cause h
    obtain rfl := Except.error.inj h
    exact Pointer.resolve_noMismatch r root cause ht
  | case2 => exact enumShape_noMismatch _ _ _
  | case3 => exact .ok _
  | case4 seen es r hr hs target ht ts ho typeName henum hlike ih => exact ih
  | case5 => exact .ok _
  | case6 => exact .ok _
  -- what is wrong with a reference is a fault of the document
  | case7 seen es v hv hr =>
    intro cause h
    exact Pointer.refDefect_ne_shape v cause (Except.error.inj h)
  | case8 seen es hr e hm =>
    intro cause h
    obtain rfl := Except.error.inj h
    exact Doc.elementsUnder_noMismatch es _ cause hm
  | case9 seen es hr first more hm ih => exact .bind (.mapMem ih) fun shapes => .ok _
  | case10 => exact enumShape_noMismatch _ _ _
  | case11 seen es hr hm nullable henum harray v hi ih => exact .bind ih fun s => .ok _
  | case12 => exact .ok _
  | case13 seen es hr hm nullable henum harray hobject next v hp ps ho ih =>
    refine .bind (.mapMem fun p hp => .bind (ih p hp) fun s => .ok _) fun shapes => ?_
    exact .bind (namedProperties_noMismatch shapes) fun properties => .ok _
  | case14 =>
    intro cause h
    cases h
  | case15 => exact .ok _
  | case16 => exact .ok _
  | case17 => exact .bind (primitiveKind_noMismatch _) fun kind => .ok _
  | case18 seen id v ih => exact ih
  | case19 =>
    intro cause h
    cases h
  | case20 => exact .ok _

end Schema

/-! ## Types -/

namespace Catalog

variable {c : Catalog}

theorem fieldEntries_noMismatch (name : String) (es : Schema.Fields) :
    (fieldEntries name es).NoMismatch := by
  intro cause h
  unfold fieldEntries at h
  split at h
  · split at h
    · cases h
    · split at h <;> cases h
  · cases h

theorem addOwn_noMismatch (acc : Inherited) (es : Schema.Fields) :
    (acc.addOwn c es).NoMismatch := by
  refine .bind (.bind (fieldEntries_noMismatch _ _) fun ps => .mapAll (fun p => ?_) ps)
    fun own => .ok _
  exact .bind (Schema.shapeFrom_noMismatch _ _ _) fun s => .ok _

theorem find?_noMismatch (name : String) (near : Option String) :
    (c.find? name near).NoMismatch := by
  intro cause h
  unfold find? at h
  split at h
  · cases h
  · split at h
    · cases h
    · split at h <;> cases h

theorem enumType_noMismatch (id : String) (es : Schema.Fields) :
    (enumType id es).NoMismatch :=
  .bind (Schema.enumInfo_noMismatch es) fun _ => .ok _

/-- What a composition contributes, once its bases can be built. -/
theorem inherit_noMismatch {seen : List String}
    (hbase : ∀ id (fresh : id ∉ seen), (c.buildType id seen fresh).NoMismatch)
    (members : List Doc) (acc : Inherited) : (c.inherit seen members acc).NoMismatch := by
  induction members generalizing acc with
  | nil =>
    rw [inherit]
    exact .ok acc
  | cons m members ih =>
    rw [inherit]
    split
    · next es hes =>
      split
      · next ref href =>
        refine .bind (Pointer.refText_noMismatch ref) fun r => ?_
        split
        · exact ih acc
        · next id hid =>
          split
          · exact ih acc
          · next fresh => exact .bind (hbase id fresh) fun base => ih _
      · exact .bind (addOwn_noMismatch _ es) fun acc => ih acc
    · exact ih acc

/-- The induction is on the components that have not been entered. -/
theorem buildType_noMismatch (id : String) (seen : List String) (fresh : id ∉ seen) :
    (c.buildType id seen fresh).NoMismatch := by
  induction hn : c.unentered seen using Nat.strongRecOn generalizing id seen with
  | _ n ih =>
    rw [buildType]
    split
    · intro cause h
      cases h
    split
    · exact .ok _
    · next v hv =>
      split
      · next es hes =>
        split
        · exact .bind (enumType_noMismatch id es) fun t => .ok _
        · refine .bind (Doc.elementsUnder_noMismatch es _) fun members => ?_
          refine .bind (inherit_noMismatch ?_ members _) fun acc => ?_
          · intro base hbase
            exact ih _ (hn ▸ unentered_lt (mem_ids_of_lookup hv) fresh) base _ hbase rfl
          · refine .bind (addOwn_noMismatch acc es) fun acc => ?_
            exact .bind (Schema.namedProperties_noMismatch _) fun properties => .ok _
      · exact .ok _

end Catalog

/-- **Looking a type up never reports a disagreement** of a value with its
shape, whatever is wrong with the document. -/
theorem Index.describeType_noMismatch (ix : Index) (name : String) (near : Option String) :
    (ix.describeType name near).NoMismatch := by
  refine .bind (Catalog.find?_noMismatch _ near) fun found => ?_
  cases found with
  | none => exact .ok none
  | some id => exact Catalog.buildType_noMismatch id [] (by simp)

end ApiSnippets
