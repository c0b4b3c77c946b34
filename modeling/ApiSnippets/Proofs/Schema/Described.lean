import ApiSnippets.Proofs.Outcome
import ApiSnippets.Schema.Index
/-!
# What a component is described as

The description of a component taken apart, once for everything that is said
about descriptions: what a component becomes (`Described`), what one member
of its composition contributes (`Contributes`) and where the properties come
from that a schema declares itself.
-/

namespace ApiSnippets

namespace Catalog

open Schema (Fields)

variable (c : Catalog)

/-- The fields of a component that is an object schema: a mapping, and no
enumeration. -/
def objectFields? (id : String) : Option Fields :=
  match (c.schemas.lookup id).map Doc.opened with
  | some (.map es) => if Schema.isEnum es then none else some es
  | _ => none

variable {c}

/-! ## One member of a composition -/

/-- What one member contributes to a type: nothing, the properties of a base
type that is not being entered, or its own ones. -/
inductive Contributes (c : Catalog) (seen : List String) (m : Doc) (acc : Inherited) :
    Inherited → Prop
  | noMapping : (∀ fs, m.opened ≠ .map fs) → Contributes c seen m acc acc
  | elsewhere {fs : Fields} {r : String} : m.opened = .map fs →
      Doc.field? Pointer.key fs = some (.text r) → Pointer.schemaId? r = none →
      Contributes c seen m acc acc
  | entered {fs : Fields} {r id : String} : m.opened = .map fs →
      Doc.field? Pointer.key fs = some (.text r) → Pointer.schemaId? r = some id → id ∈ seen →
      Contributes c seen m acc acc
  | base {fs : Fields} {r id : String} {t : Option TypeDescriptor} (h : id ∉ seen) :
      m.opened = .map fs → Doc.field? Pointer.key fs = some (.text r) →
      Pointer.schemaId? r = some id → c.buildType id seen h = .ok t →
      Contributes c seen m acc (acc.addBase id t)
  | inline {fs : Fields} {acc' : Inherited} : m.opened = .map fs →
      Doc.field? Pointer.key fs = none → acc.addInline c fs = .ok acc' →
      Contributes c seen m acc acc'

theorem eq_text_of_refText {v : Doc} {r : String} (h : Pointer.refText v = .ok r) :
    v = .text r := by
  unfold Pointer.refText at h
  split at h
  · simpa using h
  · simp at h

/-- The members of a composition contribute one after the other. -/
theorem inherit_cons {seen : List String} {m : Doc} {ms : List Doc} {acc acc' : Inherited}
    (h : c.inherit seen (m :: ms) acc = .ok acc') :
    ∃ next, Contributes c seen m acc next ∧ c.inherit seen ms next = .ok acc' := by
  rw [inherit] at h
  split at h
  · next fs hfs =>
    split at h
    · next ref href =>
      obtain ⟨r, hr, hrest⟩ := Outcome.bind_eq_ok.1 h
      rw [eq_text_of_refText hr] at href
      split at hrest
      · next hid => exact ⟨acc, .elsewhere hfs href hid, hrest⟩
      · next id hid =>
        split at hrest
        · next hmem => exact ⟨acc, .entered hfs href hid hmem, hrest⟩
        · next hmem =>
          obtain ⟨t, ht, hrest⟩ := Outcome.bind_eq_ok.1 hrest
          exact ⟨_, .base hmem hfs href hid ht, hrest⟩
    · next href =>
      obtain ⟨next, hnext, h⟩ := Outcome.bind_eq_ok.1 h
      exact ⟨next, .inline hfs href hnext, h⟩
  · next hno => exact ⟨acc, .noMapping hno, h⟩

theorem inherit_nil {seen : List String} {acc acc' : Inherited}
    (h : c.inherit seen [] acc = .ok acc') : acc' = acc := by
  rw [inherit] at h
  exact (Except.ok.inj h).symm

/-! ## One component -/

/-- What a component is described as: as nothing when its schema is no
mapping, as an enumeration, or as an object with the properties that its
composition and then its own `properties` have put. -/
inductive Described (c : Catalog) (id : String) (seen : List String) :
    Option TypeDescriptor → Prop
  | nothing : c.objectFields? id = none → Described c id seen none
  | enum {t : TypeDescriptor} : c.objectFields? id = none → t.name = id → t.kind = .enum →
      t.properties = [] → Described c id seen (some t)
  | object {es : Fields} {ms : List Doc} {acc : Inherited} {own : List (Scalar × Shape)}
      {t : TypeDescriptor} : id ∈ c.ids → c.objectFields? id = some es →
      Doc.elementsUnder es ["allOf"] = .ok ms →
      c.inherit (id :: seen) ms { title := Schema.titleOf es } = .ok acc →
      c.ownProperties es = .ok own → t.name = id → t.kind = .object →
      t.properties = Schema.named (acc.properties.putAll own) → Described c id seen (some t)

theorem addOwn_eq_ok {acc acc' : Inherited} {es : Fields} (h : acc.addOwn c es = .ok acc') :
    ∃ own, c.ownProperties es = .ok own ∧
      acc' = { acc with properties := acc.properties.putAll own } := by
  obtain ⟨own, hown, h⟩ := Outcome.bind_eq_ok.1 h
  exact ⟨own, hown, (Outcome.pure_eq_ok.1 h).symm⟩

theorem described_of_buildType {id : String} {seen : List String} {hfresh : id ∉ seen}
    {t : Option TypeDescriptor} (h : c.buildType id seen hfresh = .ok t) :
    Described c id seen t := by
  rw [buildType] at h
  split at h
  · simp at h
  split at h
  · next hl =>
    obtain rfl := Except.ok.inj h
    exact .nothing (by simp [objectFields?, hl])
  · next v hl =>
    split at h
    · next es hes =>
      split at h
      · next henum =>
        obtain ⟨t', ht', h⟩ := Outcome.bind_eq_ok.1 h
        obtain rfl := Outcome.pure_eq_ok.1 h
        obtain ⟨info, -, ht'⟩ := Outcome.bind_eq_ok.1 ht'
        obtain rfl := Outcome.pure_eq_ok.1 ht'
        exact .enum (by simp [objectFields?, hl, hes, henum]) rfl rfl rfl
      · next henum =>
        -- the type inherits first, and then adds what it declares itself
        obtain ⟨ms, hms, h⟩ := Outcome.bind_eq_ok.1 h
        obtain ⟨acc, hacc, h⟩ := Outcome.bind_eq_ok.1 h
        obtain ⟨acc', hacc', h⟩ := Outcome.bind_eq_ok.1 h
        obtain ⟨properties, hprops, h⟩ := Outcome.bind_eq_ok.1 h
        obtain rfl := Outcome.pure_eq_ok.1 h
        obtain ⟨own, hown, rfl⟩ := addOwn_eq_ok hacc'
        refine .object (mem_ids_of_lookup hl) ?_ hms hacc hown rfl rfl ?_
        · simp [objectFields?, hl, hes, henum]
        · unfold Schema.namedProperties at hprops
          split at hprops
          · exact (Except.ok.inj hprops).symm
          · simp at hprops
    · next hno =>
      obtain rfl := Except.ok.inj h
      refine .nothing ?_
      cases ho : v.opened with
      | map es => exact absurd ho (hno es)
      | _ => simp [objectFields?, hl, ho]

/-- A type has the name of its component. -/
theorem name_of_buildType {id : String} {seen : List String} {fresh : id ∉ seen}
    {t : TypeDescriptor} (h : c.buildType id seen fresh = .ok (some t)) : t.name = id := by
  cases described_of_buildType h with
  | enum _ hname => exact hname
  | object _ _ _ _ _ hname => exact hname

/-- An object schema is described when its composition and its own properties
can be read. -/
theorem buildType_of_object {id : String} {seen : List String} {hfresh : id ∉ seen} {v : Doc}
    {es : Fields} {ms : List Doc} {acc acc' : Inherited} {properties : Entries String Shape}
    (hpart : c.standIn = none) (hl : c.schemas.lookup id = some v) (hes : v.opened = .map es)
    (henum : Schema.isEnum es = false) (hms : Doc.elementsUnder es ["allOf"] = .ok ms)
    (hacc : c.inherit (id :: seen) ms { title := Schema.titleOf es } = .ok acc)
    (hown : acc.addOwn c es = .ok acc')
    (hnamed : Schema.namedProperties acc'.properties = .ok properties) :
    c.buildType id seen hfresh = .ok (some
      { name := id
        namespaceName := Text.leadingComponents id
        baseType := acc'.baseType
        title := acc'.title
        properties := properties }) := by
  rw [buildType, if_neg (by simp [hpart])]
  split
  · next hl' => simp [hl] at hl'
  · next v' hl' =>
    obtain rfl := Option.some.inj (hl.symm.trans hl')
    rw [hes]
    simp only [henum, Bool.false_eq_true, if_false]
    refine Outcome.bind_eq_ok.2 ⟨ms, hms, Outcome.bind_eq_ok.2 ⟨acc, hacc, ?_⟩⟩
    exact Outcome.bind_eq_ok.2 ⟨acc', hown, Outcome.bind_eq_ok.2 ⟨properties, hnamed, rfl⟩⟩

/-- The properties a schema declares are under the keys of its `properties`,
each with the shape of its schema. -/
theorem forall₂_of_ownProperties {es : Fields} {own : List (Scalar × Shape)}
    (h : c.ownProperties es = .ok own) :
    ∃ ps, fieldEntries "properties" es = .ok ps ∧
      List.Forall₂ (fun p q => q.1 = p.1 ∧ Schema.shapeOf c.document p.2 = .ok q.2) ps own := by
  obtain ⟨ps, hps, h⟩ := Outcome.bind_eq_ok.1 h
  refine ⟨ps, hps, (Outcome.forall₂_of_mapAll h).imp ?_⟩
  intro p q hq
  obtain ⟨s, hs, hq⟩ := Outcome.bind_eq_ok.1 hq
  obtain rfl := Outcome.pure_eq_ok.1 hq
  exact ⟨rfl, hs⟩

end Catalog

end ApiSnippets
