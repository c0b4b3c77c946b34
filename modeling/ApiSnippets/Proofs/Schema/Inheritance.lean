import Mathlib.Data.List.Permutation
import Mathlib.Logic.Relation
import ApiSnippets.Proofs.Schema.Described
import ApiSnippets.Proofs.Schema.Names
/-!
# Inherited properties

A type has the properties of every component it inherits from, whatever the
shape of the inheritance: the walk over base types enters no component twice
on one way, and cutting a cycle loses nothing, because what a cycle leads to
is led to without it (`reachesOutside_iff`). What a type declares itself
counts before what it inherits. The one exception is a name that the type's
composition spells both as a text and in octets: these are two keys of the
document, and the wrong one may come last (`octets_displace_own_property`).
-/

namespace ApiSnippets

namespace Catalog

open Schema (Fields HasName)

variable (c : Catalog)

/-! ## The graph of components -/

/-- Whether a schema declares a property of this name under its own
`properties`. -/
def DeclaresProperty (es : Fields) (x : String) : Prop :=
  ∃ ps, fieldEntries "properties" es = .ok ps ∧ HasName ps x

/-- The fields of a member of a schema's `allOf`. -/
def IsMember (es fs : Fields) : Prop :=
  ∃ ms, Doc.elementsUnder es ["allOf"] = .ok ms ∧ ∃ m ∈ ms, m.opened = .map fs

/-- The fields of a member that is no reference. -/
def IsInlineMember (es fs : Fields) : Prop :=
  IsMember es fs ∧ Doc.field? Pointer.key fs = none

/-- The names a component declares: under its own `properties`, or under those
of an inline member of its `allOf`. -/
def Declares (id x : String) : Prop :=
  ∃ es, c.objectFields? id = some es ∧
    (DeclaresProperty es x ∨ ∃ fs, IsInlineMember es fs ∧ DeclaresProperty fs x)

/-- A component inherits from the components that its `allOf` refers to. -/
def Extends (id base : String) : Prop :=
  ∃ es, c.objectFields? id = some es ∧ ∃ fs, IsMember es fs ∧
    ∃ r, Doc.field? Pointer.key fs = some (.text r) ∧ Pointer.schemaId? r = some base

/-- Inheritance that enters none of some components. -/
def ReachesOutside (seen : List String) : String → String → Prop :=
  Relation.ReflTransGen fun a b => c.Extends a b ∧ b ∉ seen

variable {c}

theorem reachesOutside_nil {a b : String} :
    c.ReachesOutside [] a b ↔ Relation.ReflTransGen c.Extends a b := by
  simp [ReachesOutside]

theorem ReachesOutside.mono {seen more : List String} {a b : String} (hsub : seen ⊆ more)
    (h : c.ReachesOutside more a b) : c.ReachesOutside seen a b := by
  refine Relation.ReflTransGen.mono ?_ _ _ h
  rintro u v ⟨huv, hv⟩
  exact ⟨huv, fun hmem => hv (hsub hmem)⟩

/-- **Cutting a cycle loses nothing.** Where a way comes back to the component
it started from, what follows is reached from there just as well. -/
theorem reachesOutside_iff {seen : List String} {a b : String} (ha : a ∉ seen) :
    c.ReachesOutside seen a b ↔
      b = a ∨ ∃ v, c.Extends a v ∧ v ∉ a :: seen ∧ c.ReachesOutside (a :: seen) v b := by
  constructor
  · intro h
    induction h with
    | refl => exact .inl rfl
    | @tail u w _ huw ih =>
      -- a way that comes back to `a` starts anew from there
      by_cases hw : w = a
      · exact .inl hw
      have hout : w ∉ a :: seen := by
        rw [List.mem_cons, not_or]
        exact ⟨hw, huw.2⟩
      rcases ih with rfl | ⟨v, hav, hv, hvu⟩
      · exact .inr ⟨w, huw.1, hout, .refl⟩
      · exact .inr ⟨v, hav, hv, hvu.tail ⟨huw.1, hout⟩⟩
  · rintro (rfl | ⟨v, hav, hv, hvb⟩)
    · exact .refl
    · have hv' : v ∉ seen := fun hmem => hv (List.mem_cons_of_mem _ hmem)
      exact .head ⟨hav, hv'⟩ (hvb.mono (List.subset_cons_self _ _))

/-! ## Names -/

/-- The names of a type's properties, none where there is no type. -/
def propertyNames (t : Option TypeDescriptor) : List String :=
  ((t.map (·.properties)).getD []).map Prod.fst

theorem hasName_ownProperties {es : Fields} {own : List (Scalar × Shape)} {x : String}
    (h : c.ownProperties es = .ok own) : HasName own x ↔ DeclaresProperty es x := by
  obtain ⟨ps, hps, hall⟩ := forall₂_of_ownProperties h
  have hname : HasName own x ↔ HasName ps x := by
    clear h hps
    induction hall with
    | nil => simp
    | cons hpq _ ih => rw [Schema.hasName_cons, Schema.hasName_cons, hpq.1, ih]
  rw [hname]
  constructor
  · intro hx
    exact ⟨ps, hps, hx⟩
  · rintro ⟨ps', hps', hx⟩
    obtain rfl := Except.ok.inj (hps.symm.trans hps')
    exact hx

theorem hasName_addBase {acc : Inherited} {id x : String} {t : Option TypeDescriptor} :
    HasName (acc.addBase id t).properties x ↔ HasName acc.properties x ∨ x ∈ propertyNames t := by
  show HasName (acc.properties.putAll _) x ↔ _
  rw [Schema.hasName_putAll]
  refine or_congr_right ?_
  simp only [HasName, propertyNames, List.mem_map]
  constructor
  · rintro ⟨e, ⟨p, hp, rfl⟩, he⟩
    exact ⟨p, hp, by simpa [Scalar.recordText?] using he⟩
  · rintro ⟨p, hp, rfl⟩
    exact ⟨_, ⟨p, hp, rfl⟩, rfl⟩

/-- The names that one member of a composition brings in: its own when it is
inline, else those of every component that its base leads to. -/
def Brings (c : Catalog) (seen : List String) (m : Doc) (x : String) : Prop :=
  ∃ fs, m.opened = .map fs ∧
    ((Doc.field? Pointer.key fs = none ∧ DeclaresProperty fs x) ∨
      ∃ r id, Doc.field? Pointer.key fs = some (.text r) ∧ Pointer.schemaId? r = some id ∧
        id ∉ seen ∧ ∃ u, c.ReachesOutside seen id u ∧ c.Declares u x)

/-- That the types built outside some components have the names of everything
they lead to. -/
def NamesReached (c : Catalog) (seen : List String) : Prop :=
  ∀ id (h : id ∉ seen) t, c.buildType id seen h = .ok t →
    ∀ x, x ∈ propertyNames t ↔ ∃ u, c.ReachesOutside seen id u ∧ c.Declares u x

theorem hasName_of_contributes {seen : List String} {m : Doc} {acc next : Inherited}
    (hb : NamesReached c seen) (h : Contributes c seen m acc next) (x : String) :
    HasName next.properties x ↔ HasName acc.properties x ∨ Brings c seen m x := by
  -- a reference brings nothing in unless it leads to a component outside
  have hnone : (∀ fs, m.opened = .map fs →
      ∃ r, Doc.field? Pointer.key fs = some (.text r) ∧
        ∀ id, Pointer.schemaId? r = some id → id ∈ seen) → ¬ Brings c seen m x := by
    rintro hno ⟨fs, hfs, hbr⟩
    obtain ⟨r, hr, hid⟩ := hno fs hfs
    rcases hbr with ⟨hinline, -⟩ | ⟨r', id, hr', hs, hout, -⟩
    · rw [hr] at hinline
      simp at hinline
    · obtain rfl : r = r' := by simpa [hr] using hr'
      exact hout (hid id hs)
  cases h with
  | noMapping hno => simp [hnone fun fs hfs => absurd hfs (hno fs)]
  | elsewhere hfs href hid =>
    rw [or_iff_left (hnone fun fs' hfs' => ?_)]
    obtain rfl := Doc.map.inj (hfs.symm.trans hfs')
    exact ⟨_, href, fun id hid' => absurd (hid.symm.trans hid') (by simp)⟩
  | entered hfs href hid hmem =>
    rw [or_iff_left (hnone fun fs' hfs' => ?_)]
    obtain rfl := Doc.map.inj (hfs.symm.trans hfs')
    refine ⟨_, href, fun id' hid' => ?_⟩
    obtain rfl := Option.some.inj (hid.symm.trans hid')
    exact hmem
  | @base fs r id t hout hfs href hid ht =>
    rw [hasName_addBase, hb id hout t ht x]
    refine or_congr_right ⟨?_, ?_⟩
    · intro hu
      exact ⟨fs, hfs, .inr ⟨r, id, href, hid, hout, hu⟩⟩
    · rintro ⟨fs', hfs', hbr⟩
      obtain rfl := Doc.map.inj (hfs.symm.trans hfs')
      rcases hbr with ⟨hinline, -⟩ | ⟨r', id', hr', hs, -, hu⟩
      · rw [href] at hinline
        simp at hinline
      · obtain rfl : r = r' := by simpa [href] using hr'
        obtain rfl := Option.some.inj (hid.symm.trans hs)
        exact hu
  | @inline fs _ hfs href hadd =>
    obtain ⟨own, hown, rfl⟩ := addOwn_eq_ok hadd
    rw [Schema.hasName_putAll, hasName_ownProperties hown]
    refine or_congr_right ⟨?_, ?_⟩
    · intro hx
      exact ⟨fs, hfs, .inl ⟨href, hx⟩⟩
    · rintro ⟨fs', hfs', hbr⟩
      obtain rfl := Doc.map.inj (hfs.symm.trans hfs')
      rcases hbr with ⟨-, hx⟩ | ⟨r', id', hr', -⟩
      · exact hx
      · rw [href] at hr'
        simp at hr'

theorem hasName_of_inherit {seen : List String} {ms : List Doc} {acc acc' : Inherited}
    (hb : NamesReached c seen) (h : c.inherit seen ms acc = .ok acc') (x : String) :
    HasName acc'.properties x ↔ HasName acc.properties x ∨ ∃ m ∈ ms, Brings c seen m x := by
  induction ms generalizing acc with
  | nil =>
    rw [inherit_nil h]
    simp
  | cons m ms ih =>
    obtain ⟨next, hnext, h⟩ := inherit_cons h
    rw [ih h, hasName_of_contributes hb hnext x, or_assoc]
    simp

/-- What an object schema declares and what its bases bring in is what it
leads to. -/
theorem exists_declares_iff {id : String} {seen : List String} {es : Fields} {ms : List Doc}
    (hid : id ∉ seen) (hes : c.objectFields? id = some es)
    (hms : Doc.elementsUnder es ["allOf"] = .ok ms) (x : String) :
    ((∃ m ∈ ms, Brings c (id :: seen) m x) ∨ DeclaresProperty es x) ↔
      ∃ u, c.ReachesOutside seen id u ∧ c.Declares u x := by
  constructor
  · rintro (⟨m, hm, fs, hfs, hbr⟩ | hx)
    · rcases hbr with ⟨hinline, hx⟩ | ⟨r, base, hr, hs, hout, u, hu, hx⟩
      · exact ⟨id, .refl, es, hes, .inr ⟨fs, ⟨⟨ms, hms, m, hm, hfs⟩, hinline⟩, hx⟩⟩
      · refine ⟨u, (reachesOutside_iff hid).2 (.inr ⟨base, ?_, hout, hu⟩), hx⟩
        exact ⟨es, hes, fs, ⟨ms, hms, m, hm, hfs⟩, r, hr, hs⟩
    · exact ⟨id, .refl, es, hes, .inl hx⟩
  · rintro ⟨u, hu, hx⟩
    rcases (reachesOutside_iff hid).1 hu with rfl | ⟨v, ⟨es', hes', fs, hmem, r, hr, hs⟩, hv, hu⟩
    · obtain ⟨es', hes', hx⟩ := hx
      obtain rfl := Option.some.inj (hes.symm.trans hes')
      rcases hx with hx | ⟨fs, ⟨⟨ms', hms', m, hm, hfs⟩, hinline⟩, hx⟩
      · exact .inr hx
      · obtain rfl := Except.ok.inj (hms.symm.trans hms')
        exact .inl ⟨m, hm, fs, hfs, .inl ⟨hinline, hx⟩⟩
    · -- the first step of the way is a member that is a reference
      obtain rfl := Option.some.inj (hes.symm.trans hes')
      obtain ⟨ms', hms', m, hm, hfs⟩ := hmem
      obtain rfl := Except.ok.inj (hms.symm.trans hms')
      exact .inl ⟨m, hm, fs, hfs, .inr ⟨r, v, hr, hs, hv, u, hu, hx⟩⟩

/-- **A type has the names of everything it leads to.** The induction is on
the components that have not been entered. -/
theorem namesReached (c : Catalog) (seen : List String) : NamesReached c seen := by
  induction hn : c.unentered seen using Nat.strongRecOn generalizing seen with
  | _ n ih =>
    intro id hid t ht x
    have hnothing : c.objectFields? id = none →
        ¬ ∃ u, c.ReachesOutside seen id u ∧ c.Declares u x := by
      rintro hno ⟨u, hu, es, hes, -⟩
      rcases (reachesOutside_iff hid).1 hu with rfl | ⟨v, ⟨es', hes', -⟩, -⟩
      · simp [hno] at hes
      · simp [hno] at hes'
    cases described_of_buildType ht with
    | nothing hno => simp [propertyNames, hnothing hno]
    | enum hno _ _ hps => simp [propertyNames, hps, hnothing hno]
    | @object es ms acc own t hmem hes hms hacc hown _ _ hps =>
      -- the bases are built with this component entered, so fewer are left
      have hb : NamesReached c (id :: seen) := ih _ (hn ▸ unentered_lt hmem hid) _ rfl
      rw [← exists_declares_iff hid hes hms x]
      show x ∈ t.properties.map Prod.fst ↔ _
      rw [hps, Schema.mem_keys_named, Schema.hasName_putAll, hasName_of_inherit hb hacc x,
        hasName_ownProperties hown]
      simp

/-! ## Own properties -/

/-- A component declares a property of this name under its own `properties`. -/
def DeclaresItself (c : Catalog) (id x : String) : Prop :=
  ∃ es, c.objectFields? id = some es ∧ DeclaresProperty es x

/-- The shape of a property that a component declares under its own
`properties`. -/
def HasOwnShape (c : Catalog) (id x : String) (s : Shape) : Prop :=
  ∃ es ps, c.objectFields? id = some es ∧ fieldEntries "properties" es = .ok ps ∧
    ∃ k v, (k, v) ∈ ps ∧ k.recordText? = some x ∧ Schema.shapeOf c.document v = .ok s

/-- A member of a composition brings in a key: one of its own properties when it
is inline, else a name that its base leads to. -/
def BringsKey (c : Catalog) (seen : List String) (m : Doc) (k : Scalar) : Prop :=
  ∃ fs, m.opened = .map fs ∧
    ((Doc.field? Pointer.key fs = none ∧
        ∃ ps, fieldEntries "properties" fs = .ok ps ∧ k ∈ ps.map Prod.fst) ∨
      ∃ r id n, Doc.field? Pointer.key fs = some (.text r) ∧ Pointer.schemaId? r = some id ∧
        k = .text n ∧ ∃ u, c.ReachesOutside seen id u ∧ c.Declares u n)

theorem mem_keys_of_contributes {seen : List String} {m : Doc} {acc next : Inherited} {k : Scalar}
    (hb : NamesReached c seen) (h : Contributes c seen m acc next)
    (hk : k ∈ next.properties.keys) : k ∈ acc.properties.keys ∨ BringsKey c seen m k := by
  cases h with
  | noMapping _ => exact .inl hk
  | elsewhere _ _ _ => exact .inl hk
  | entered _ _ _ _ => exact .inl hk
  | base hout hfs href hid ht =>
    rcases Schema.mem_keys_of_mem_putAll hk with hk | hk
    · exact .inl hk
    · obtain ⟨e, he, rfl⟩ := List.mem_map.1 hk
      obtain ⟨p, hp, rfl⟩ := List.mem_map.1 he
      have hreached := (hb _ hout _ ht p.1).1 (List.mem_map_of_mem hp)
      exact .inr ⟨_, hfs, .inr ⟨_, _, p.1, href, hid, rfl, hreached⟩⟩
  | inline hfs href hadd =>
    obtain ⟨own, hown, rfl⟩ := addOwn_eq_ok hadd
    rcases Schema.mem_keys_of_mem_putAll hk with hk | hk
    · exact .inl hk
    · obtain ⟨ps, hps, hall⟩ := forall₂_of_ownProperties hown
      obtain ⟨q, hq, rfl⟩ := List.mem_map.1 hk
      obtain ⟨p, hp, hpq, -⟩ := Outcome.exists_of_forall₂ hall hq
      exact .inr ⟨_, hfs, .inl ⟨href, ps, hps, List.mem_map.2 ⟨p, hp, hpq.symm⟩⟩⟩

theorem distinct_of_contributes {seen : List String} {m : Doc} {acc next : Inherited}
    (h : Contributes c seen m acc next) (hd : acc.properties.Distinct) :
    next.properties.Distinct := by
  cases h with
  | noMapping _ => exact hd
  | elsewhere _ _ _ => exact hd
  | entered _ _ _ _ => exact hd
  | base _ _ _ _ _ => exact Entries.distinct_putAll _ hd
  | inline _ _ hadd =>
    obtain ⟨own, -, rfl⟩ := addOwn_eq_ok hadd
    exact Entries.distinct_putAll _ hd

/-- What a whole composition has put: each key once, and only keys that its
members bring in. -/
theorem keys_of_inherit {seen : List String} {ms : List Doc} {acc acc' : Inherited}
    (hb : NamesReached c seen) (h : c.inherit seen ms acc = .ok acc')
    (hd : acc.properties.Distinct) :
    acc'.properties.Distinct ∧ ∀ k ∈ acc'.properties.keys,
      k ∈ acc.properties.keys ∨ ∃ m ∈ ms, BringsKey c seen m k := by
  induction ms generalizing acc with
  | nil =>
    rw [inherit_nil h]
    exact ⟨hd, fun k hk => .inl hk⟩
  | cons m ms ih =>
    obtain ⟨next, hnext, h⟩ := inherit_cons h
    obtain ⟨hd', hkeys⟩ := ih h (distinct_of_contributes hnext hd)
    refine ⟨hd', fun k hk => ?_⟩
    rcases hkeys k hk with hk | ⟨m', hm', hk⟩
    · rcases mem_keys_of_contributes hb hnext hk with hk | hk
      · exact .inl hk
      · exact .inr ⟨m, List.mem_cons_self, hk⟩
    · exact .inr ⟨m', List.mem_cons_of_mem _ hm', hk⟩

/-- An inline member of a component's `allOf` has a property of this name
under a key that is octets and not a text. -/
def SpelledInOctets (c : Catalog) (id x : String) : Prop :=
  ∃ es fs ps, c.objectFields? id = some es ∧ IsInlineMember es fs ∧
    fieldEntries "properties" fs = .ok ps ∧
      ∃ bs, Scalar.octets bs ∈ ps.map Prod.fst ∧ Utf8.decode? bs = some x

/-- A member of a component's `allOf` has a property of this name as a text:
among its own, or inherited through the component it refers to. -/
def SpelledInText (c : Catalog) (id x : String) : Prop :=
  ∃ es fs, c.objectFields? id = some es ∧ IsMember es fs ∧
    ((Doc.field? Pointer.key fs = none ∧
        ∃ ps, fieldEntries "properties" fs = .ok ps ∧ Scalar.text x ∈ ps.map Prod.fst) ∨
      ∃ r base, Doc.field? Pointer.key fs = some (.text r) ∧ Pointer.schemaId? r = some base ∧
        ∃ u, Relation.ReflTransGen c.Extends base u ∧ c.Declares u x)

theorem spelledInOctets_of_bringsKey {id x : String} {seen : List String} {es : Fields}
    {ms : List Doc} {m : Doc} {bs : Bytes} (hes : c.objectFields? id = some es)
    (hms : Doc.elementsUnder es ["allOf"] = .ok ms) (hm : m ∈ ms)
    (h : BringsKey c seen m (.octets bs)) (hbs : Utf8.decode? bs = some x) :
    c.SpelledInOctets id x := by
  obtain ⟨fs, hfs, ⟨href, ps, hps, hk⟩ | ⟨r, base, n, -, -, hn, -⟩⟩ := h
  · exact ⟨es, fs, ps, hes, ⟨⟨ms, hms, m, hm, hfs⟩, href⟩, hps, bs, hk, hbs⟩
  · simp at hn

theorem spelledInText_of_bringsKey {id x : String} {seen : List String} {es : Fields}
    {ms : List Doc} {m : Doc} (hes : c.objectFields? id = some es)
    (hms : Doc.elementsUnder es ["allOf"] = .ok ms) (hm : m ∈ ms)
    (h : BringsKey c seen m (.text x)) : c.SpelledInText id x := by
  obtain ⟨fs, hfs, hbrings⟩ := h
  refine ⟨es, fs, hes, ⟨ms, hms, m, hm, hfs⟩, ?_⟩
  rcases hbrings with ⟨href, ps, hps, hk⟩ | ⟨r, base, n, href, hid, hn, u, hu, hx⟩
  · exact .inl ⟨href, ps, hps, hk⟩
  · obtain rfl := Scalar.text.inj hn
    refine .inr ⟨r, base, href, hid, u, ?_, hx⟩
    exact reachesOutside_nil.1 (hu.mono (List.nil_subset _))

/-! ## Description -/

theorem exists_buildType_of_describe {name : String} {near : Option String} {t : TypeDescriptor}
    (h : c.describe name near = .ok (some t)) :
    ∃ id, c.buildType id [] List.not_mem_nil = .ok (some t) := by
  obtain ⟨found, -, h⟩ := Outcome.bind_eq_ok.1 h
  cases found with
  | none => exact absurd (Outcome.pure_eq_ok.1 h) (by simp)
  | some id => exact ⟨id, h⟩

/-- **A type has the properties of everything it inherits from**, in whatever
shape the inheritance is: its names are those that the components it leads to
declare, itself included. What it declares under its own `properties` has the
shape of that declaration, unless its `allOf` spells the name both in octets
and as a text. -/
theorem describe_inherits {c : Catalog} {name : String} {near : Option String}
    {t : TypeDescriptor} (h : c.describe name near = .ok (some t)) (hkind : t.kind ≠ .enum) :
    (∀ x, x ∈ t.properties.map Prod.fst ↔
      ∃ u, Relation.ReflTransGen c.Extends t.name u ∧ c.Declares u x) ∧
    ∀ x, c.DeclaresItself t.name x →
      (∃ s, Entries.get? t.properties x = some s ∧ c.HasOwnShape t.name x s) ∨
        c.SpelledInOctets t.name x ∧ c.SpelledInText t.name x := by
  obtain ⟨id, ht⟩ := exists_buildType_of_describe h
  cases described_of_buildType ht with
  | enum _ _ henum _ => exact absurd henum hkind
  | @object es ms acc own _ _ hes hms hacc hown hname _ hps =>
    subst hname
    refine ⟨fun x => ?_, fun x hx => ?_⟩
    · simp only [← reachesOutside_nil]
      exact namesReached c [] t.name _ _ ht x
    obtain ⟨hd, hkeys⟩ := keys_of_inherit (namesReached c _) hacc .nil
    obtain ⟨ps, hpsf, hall⟩ := forall₂_of_ownProperties hown
    have hx' : HasName own x := by
      obtain ⟨es', hes', hx⟩ := hx
      obtain rfl := Option.some.inj (hes.symm.trans hes')
      exact (hasName_ownProperties hown).2 hx
    by_cases hboth : c.SpelledInOctets t.name x ∧ c.SpelledInText t.name x
    · exact .inr hboth
    -- the composition has put the name under one key at most
    have hone : Schema.OneKey acc.properties.keys x := by
      refine Schema.oneKey_of_not_both ?_
      rintro ⟨htext, bs, hoctets, hbs⟩
      refine hboth ⟨?_, ?_⟩
      · obtain ⟨m, hm, hk⟩ := (hkeys _ hoctets).resolve_left (by simp [Entries.keys])
        exact spelledInOctets_of_bringsKey hes hms hm hk hbs
      · obtain ⟨m, hm, hk⟩ := (hkeys _ htext).resolve_left (by simp [Entries.keys])
        exact spelledInText_of_bringsKey hes hms hm hk
    obtain ⟨k, s, hmem, hk, hs⟩ := Schema.get?_named_putAll hd hone hx'
    obtain ⟨p, hp, hpk, hshape⟩ := Outcome.exists_of_forall₂ hall hmem
    refine .inl ⟨s, hps ▸ hs, es, ps, hes, hpsf, p.1, p.2, hp, ?_, hshape⟩
    exact hpk ▸ hk

/-- Three components: `ns.item` and `ns.base` inherit from each other, and
both inherit from `ns.entity`. -/
def circular : Catalog :=
  { document := .null
    schemas :=
      [("ns.item", inheriting ["ns.base", "ns.entity"] "size" "boolean"),
       ("ns.base", inheriting ["ns.item", "ns.entity"] "size" "string"),
       ("ns.entity", inheriting [] "id" "string")] }
where
  /-- A schema with base types and one property. -/
  inheriting (bases : List String) (property kind : String) : Doc :=
    .map
      [(.text "allOf", .list (bases.map fun b =>
          .map [(.text "$ref", .text ("#/components/schemas/" ++ b))])),
       (.text "properties", .map [(.text property, .map [(.text "type", .text kind)])])]

/-- What `ns.base` of `circular` is described as. -/
def circularBase : TypeDescriptor :=
  { name := "ns.base"
    namespaceName := "ns"
    baseType := some "ns.item"
    properties := [("id", { kind := .string }), ("size", { kind := .string })] }

theorem describe_inherits_circular :
    circular.describe "ns.base" none = .ok (some circularBase) ∧
      circularBase.kind ≠ .enum ∧
      (∀ x, x ∈ circularBase.properties.map Prod.fst ↔
        ∃ u, Relation.ReflTransGen circular.Extends "ns.base" u ∧ circular.Declares u x) ∧
      ∀ x, circular.DeclaresItself "ns.base" x →
        (∃ s, Entries.get? circularBase.properties x = some s ∧
          circular.HasOwnShape "ns.base" x s) ∨
          circular.SpelledInOctets "ns.base" x ∧ circular.SpelledInText "ns.base" x := by
  have hdescribe : circular.describe "ns.base" none = .ok (some circularBase) := by cbv
  have hkind : circularBase.kind ≠ .enum := by decide
  exact ⟨hdescribe, hkind, describe_inherits hdescribe hkind⟩

/-! ## Octets -/

/-- A document in which `ns.item` inherits `size` from `ns.base`, spells it
again in octets in an inline member, and declares it itself. -/
def octetDocument : Doc :=
  .map [(.text "components", .map [(.text "schemas", .map
    [(.text "ns.base", .map [(.text "properties", .map [(.text "size", typed "string")])]),
     (.text "ns.item", .map
       [(.text "allOf", .list
          [.map [(.text "$ref", .text "#/components/schemas/ns.base")],
           .map [(.text "properties", .map [(.octets [115, 105, 122, 101], typed "integer")])]]),
        (.text "properties", .map [(.text "size", typed "boolean")])])])])]
where
  /-- A schema with nothing but a type. -/
  typed (kind : String) : Doc :=
    .map [(.text "type", .text kind)]

/-- What `ns.item` of `octetDocument` has put under the two keys of its one
property: a text, which it inherits and declares itself, and octets. -/
def octetInherited (kind : SchemaKind) : Inherited :=
  { properties :=
      [(.text "size", { kind := kind }), (.octets [115, 105, 122, 101], { kind := .integer })]
    baseType := some "ns.base" }

/-- What `ns.item` of `octetDocument` is described as. -/
def octetItem : TypeDescriptor :=
  { name := "ns.item"
    namespaceName := "ns"
    baseType := some "ns.base"
    properties := [("size", { kind := .integer })] }

/-- Octets come after the text of the same name when that was inherited
first: the place of the inherited text is what its own declaration takes. -/
theorem octets_displace_own_property :
    ∃ c, Index.catalogIn octetDocument = .ok c ∧
      c.describe "ns.item" none = .ok (some octetItem) ∧ octetItem.kind ≠ .enum ∧
      c.DeclaresItself "ns.item" "size" ∧
      ¬ ∃ s, Entries.get? octetItem.properties "size" = some s ∧
        c.HasOwnShape "ns.item" "size" s := by
  refine ⟨_, rfl, ?_, by decide, ⟨_, rfl, _, rfl, _, List.mem_cons_self, rfl⟩, ?_⟩
  · refine @buildType_of_object _ "ns.item" [] _ _ _ _ (octetInherited .string)
      (octetInherited .boolean) _ rfl rfl rfl rfl rfl ?_ ?_ rfl
    · cbv
    · cbv
  rintro ⟨s, hs, es, ps, hes, hps, k, v, hmem, -, hshape⟩
  obtain rfl : { kind := .integer } = s := Option.some.inj hs
  obtain rfl := Option.some.inj hes
  obtain rfl := Except.ok.inj hps
  obtain ⟨-, rfl⟩ := Prod.mk.inj (List.mem_singleton.1 hmem)
  have hbool : Schema.shapeOf octetDocument (octetDocument.typed "boolean") =
      .ok { kind := .boolean } := by cbv
  exact absurd (hbool.symm.trans hshape) (by simp)

end Catalog

end ApiSnippets
