import ApiSnippets.Schema.Index
import ApiSnippets.Proofs.Schema.Lookups
/-!
# Flaws of schemas

A schema is read without a check of what stands in it: of a reference that is
no text, of a composition that is no list, of properties that are no mapping
nothing can be made, and the reading stops there with a defect. `Flawed` says
of which schemas this is true, in terms of the document alone: a schema has a
flaw, or a schema has one that the reading goes on to. Every other failure is
a reference that leads nowhere, which is a fault of the index
(`shapeOf_stopsAt`).
-/

namespace ApiSnippets

namespace Outcome

variable {α β : Type} {p q : Prop}

/-- That a step does not get past a flaw, and fails in two ways only: with a
fault of the index, or with a defect where there is the flaw. -/
structure StopsAt (x : Outcome α) (flaw : Prop) : Prop where
  ne_ok : flaw → ∀ a, x ≠ .ok a
  fault : ∀ e, x = .error e → (∃ cause, e = .index cause) ∨ flaw ∧ ∃ kind, e = .defect kind

namespace StopsAt

theorem ok (a : α) (h : ¬ p) : StopsAt (.ok a) p where
  ne_ok hp := (h hp).elim
  fault := by
    intro e he
    cases he

/-- A failure passed on to another type of result. -/
theorem error {x : Outcome α} {e : Fault} (hx : x.StopsAt p) (h : x = .error e) (hpq : p → q) :
    StopsAt (α := β) (.error e) q where
  ne_ok := by
    intro _ b hb
    cases hb
  fault := by
    intro e' he
    obtain rfl := Except.error.inj he
    exact (hx.fault e h).imp_right fun hd => ⟨hpq hd.1, hd.2⟩

theorem index (cause : IndexFault) : StopsAt (α := α) (.error (.index cause)) p where
  ne_ok := by
    intro _ a h
    cases h
  fault := by
    intro e h
    exact .inl ⟨cause, (Except.error.inj h).symm⟩

theorem defect (kind : Defect) (h : p) : StopsAt (α := α) (.error (.defect kind)) p where
  ne_ok := by
    intro _ a h
    cases h
  fault := by
    intro e he
    exact .inr ⟨h, kind, (Except.error.inj he).symm⟩

theorem congr {x : Outcome α} (h : x.StopsAt p) (hpq : p ↔ q) : x.StopsAt q where
  ne_ok hq := h.ne_ok (hpq.2 hq)
  fault e he := (h.fault e he).imp_right fun hd => ⟨hpq.1 hd.1, hd.2⟩

/-- What a sequence stops at is what its first step stops at, and what the
rest does once the first step is done. -/
theorem andThen {x : Outcome α} {f : α → Outcome β} (hx : x.StopsAt p) (hpq : p → q)
    (hf : ∀ a, x = .ok a → (f a).StopsAt q) : (x >>= f).StopsAt q where
  ne_ok := by
    intro hq b h
    obtain ⟨a, ha, hb⟩ := bind_eq_ok.1 h
    exact (hf a ha).ne_ok hq b hb
  fault := by
    intro e h
    rcases bind_eq_error.1 h with h | ⟨a, ha, h⟩
    · exact (hx.fault e h).imp_right fun hd => ⟨hpq hd.1, hd.2⟩
    · exact (hf a ha).fault e h

/-- The flaws of a sequence are the flaws of its steps: a later one is not
got past even when an earlier step fails. -/
theorem bind {x : Outcome α} {f : α → Outcome β} (hx : x.StopsAt p)
    (hf : ∀ a, x = .ok a → (f a).StopsAt q) : (x >>= f).StopsAt (p ∨ q) := by
  refine hx.andThen .inl fun a ha => (hf a ha).congr ?_
  have hp : ¬ p := fun hp => hx.ne_ok hp a ha
  exact (or_iff_right hp).symm

/-- A sequence whose later steps cannot fail. -/
theorem bind_ok {x : Outcome α} (f : α → β) (hx : x.StopsAt p) :
    (x >>= fun a => pure (f a)).StopsAt p :=
  (hx.bind fun a _ => .ok (p := False) (f a) id).congr (by simp)

theorem map {x : Outcome α} {f : α → β} (hx : x.StopsAt p) : StopsAt (x.map f) p where
  ne_ok := by
    intro hp b h
    obtain ⟨a, ha, -⟩ := map_eq_ok.1 h
    exact hx.ne_ok hp a ha
  fault e h := hx.fault e (map_eq_error.1 h)

theorem mapMem {xs : List α} {f : (a : α) → a ∈ xs → Outcome β} {flaw : α → Prop}
    (h : ∀ a ha, (f a ha).StopsAt (flaw a)) :
    (Outcome.mapMem xs f).StopsAt (∃ a ∈ xs, flaw a) := by
  induction xs with
  | nil => exact ok [] (by simp)
  | cons x xs ih =>
    have hrest := ih fun a ha => h a (List.mem_cons_of_mem _ ha)
    refine ((h x List.mem_cons_self).bind fun y _ => hrest.bind_ok (y :: ·)).congr ?_
    simp

end StopsAt

end Outcome

open Outcome

/-! ## Values that are gone through -/

namespace Doc

/-- Whether a value has elements: a list, a mapping, a set, a pair, a text or
octets. -/
def isIterable (v : Doc) : Bool :=
  match v.opened with
  | list _ | map _ | set _ | pair _ _ | text _ | scalar (.octets _) => true
  | _ => false

/-- A field is there and its value has no elements. -/
def Unlisted (name : String) (es : List (Scalar × Doc)) : Prop :=
  ∃ v, field? name es = some v ∧ v.isIterable = false

theorem elements_stopsAt (v : Doc) : v.elements.StopsAt (v.isIterable = false) := by
  unfold elements isIterable
  generalize v.opened = w
  -- a scalar is gone through when it is a text or octets
  rcases w with (_ | _ | _ | _ | _ | _ | _ | _) | _ | _ | _ | _ | _ | _
  all_goals first
    | exact .ok _ (by simp)
    | exact .defect _ (by simp)

theorem text?_eq_none {v : Doc} (h : ∀ s, v = .text s → False) : v.text? = none := by
  unfold text?
  split
  · next s => exact (h s rfl).elim
  · rfl

theorem isMap_eq_false {v : Doc} (h : ∀ es, v.opened = .map es → False) : v.isMap = false := by
  unfold isMap
  split
  · next es he => exact (h es he).elim
  · rfl

theorem isMap_iff {v : Doc} : v.isMap = true ↔ ∃ es, v.opened = .map es := by
  unfold isMap
  split
  · next es he => simp [he]
  · next hv => simpa using hv

theorem not_unlisted {name : String} {es : List (Scalar × Doc)} (h : field? name es = none) :
    ¬ Unlisted name es := by
  rintro ⟨v, hv, -⟩
  simp [h] at hv

theorem unlisted_iff {name : String} {es : List (Scalar × Doc)} {v : Doc}
    (h : field? name es = some v) : Unlisted name es ↔ v.isIterable = false := by
  simp [Unlisted, h]

theorem elementsUnder_stopsAt (es : List (Scalar × Doc)) (names : List String) :
    (elementsUnder es names).StopsAt (∃ name ∈ names, Unlisted name es) := by
  induction names with
  | nil => exact .ok [] (by simp)
  | cons name names ih =>
    rw [elementsUnder]
    cases h : field? name es with
    | none => exact (ih.bind_ok ([] ++ ·)).congr (by simp [not_unlisted h])
    | some v =>
      refine (v.elements_stopsAt.bind fun first _ => ih.bind_ok (first ++ ·)).congr ?_
      simp [unlisted_iff h]

end Doc

/-! ## References -/

namespace Pointer

theorem mem_of_itemAt? {items : List Doc} {i : Int} {v : Doc} (h : itemAt? items i = some v) :
    v ∈ items := by
  unfold itemAt? at h
  split at h
  · exact List.mem_of_getElem? h
  · split at h
    · exact List.mem_of_getElem? h
    · cases h

theorem step_stopsAt (ref : String) (current : Doc) (segment : List Char) :
    (step ref current segment).StopsAt False := by
  unfold step
  dsimp only
  split
  · split
    · exact .ok _ id
    · exact .index _
  · split
    · exact .ok _ id
    · exact .index _
  · exact .index _

theorem follow_stopsAt (ref : String) (current : Doc) (segments : List (List Char)) :
    (follow ref current segments).StopsAt False := by
  induction segments generalizing current with
  | nil => exact .ok _ id
  | cons segment segments ih =>
    exact ((step_stopsAt ref current segment).bind fun next _ => ih next).congr (by simp)

theorem resolve_stopsAt (ref : String) (root : Doc) : (resolve ref root).StopsAt False := by
  unfold resolve
  split
  · exact follow_stopsAt _ _ _
  · exact .index _

theorem refDefect_stopsAt {α : Type} {p : Prop} (v : Doc) (h : p) :
    StopsAt (α := α) (.error (refDefect v)) p := by
  unfold refDefect
  split
  · exact .defect _ h
  · exact .defect _ h

theorem refText_stopsAt (v : Doc) : (refText v).StopsAt (v.text? = none) := by
  unfold refText
  split
  · exact .ok _ (by simp [Doc.text?])
  · next hv => exact refDefect_stopsAt v (Doc.text?_eq_none hv)

theorem refText_eq_ok {v : Doc} {r : String} : refText v = .ok r ↔ v = .text r := by
  unfold refText
  split
  · simp
  · next hv =>
    simp only [reduceCtorEq, false_iff]
    exact hv r

/-- A value is reached from another over so many references. -/
inductive Leads (root : Doc) : Nat → Doc → Doc → Prop
  | here (v : Doc) : Leads root 0 v v
  | next {n : Nat} {r : String} {v w u : Doc} (hr : v.get? key = some (.text r))
      (ht : resolve r root = .ok w) (h : Leads root n w u) : Leads root (n + 1) v u

/-- Less than so many references after a value stands one that is no text. -/
def Broken (root : Doc) (limit : Nat) (v : Doc) : Prop :=
  ∃ n < limit, ∃ w ref, Leads root n v w ∧ w.get? key = some ref ∧ ref.text? = none

theorem not_broken_zero (root v : Doc) : ¬ Broken root 0 v := by
  rintro ⟨n, hn, -⟩
  omega

theorem not_broken {root v : Doc} {limit : Nat} (h : v.get? key = none) :
    ¬ Broken root limit v := by
  rintro ⟨n, -, w, ref, hl, hw, -⟩
  cases hl with
  | here => simp [h] at hw
  | next hr => simp [h] at hr

/-- A chain is broken at its first reference, or behind it. -/
theorem broken_succ {root v ref : Doc} {limit : Nat} (h : v.get? key = some ref) :
    Broken root (limit + 1) v ↔
      ref.text? = none ∨
        ∃ r w, ref = .text r ∧ resolve r root = .ok w ∧ Broken root limit w := by
  constructor
  · rintro ⟨n, hn, u, end?, hl, hu, htext⟩
    cases hl with
    | here =>
      obtain rfl : ref = end? := by simpa [h] using hu
      exact .inl htext
    | @next n r v w u hr ht hl =>
      obtain rfl : ref = .text r := by simpa [h] using hr
      exact .inr ⟨r, w, rfl, ht, n, by omega, u, end?, hl, hu, htext⟩
  · rintro (htext | ⟨r, w, rfl, ht, n, hn, u, end?, hl, hu, htext⟩)
    · exact ⟨0, by omega, v, ref, .here v, h, htext⟩
    · exact ⟨n + 1, by omega, u, end?, .next h ht hl, hu, htext⟩

theorem deref_stopsAt (root : Doc) (limit : Nat) (v : Doc) :
    (deref root limit v).StopsAt (Broken root limit v) := by
  induction limit generalizing v with
  | zero =>
    rw [deref]
    split
    · exact .ok v (not_broken_zero root v)
    · exact .index _
  | succ limit ih =>
    rw [deref]
    split
    · next h => exact .ok v (not_broken h)
    · next ref h =>
      refine ((refText_stopsAt ref).bind (q := ∃ r w, ref = .text r ∧ resolve r root = .ok w ∧
        Broken root limit w) fun r hr => ?_).congr (broken_succ h).symm
      obtain rfl := refText_eq_ok.1 hr
      refine ((resolve_stopsAt r root).bind (q := ∃ w, resolve r root = .ok w ∧
        Broken root limit w) fun w hw => ?_).congr (by simp)
      exact (ih w).congr (by simp [hw])

end Pointer

/-! ## Schemas -/

namespace Schema

/-- A schema that is neither a reference nor a composition. -/
structure Plain (es : Fields) : Prop where
  no_reference : Doc.field? Pointer.key es = none
  no_member : compositionMembers es = .ok []

/-- What can be wrong with a plain schema itself: the members of its
enumeration have to be a list, its properties a mapping with names that are
texts, and its type a name. -/
inductive OwnFlaw (es : Fields) : Prop
  | members (henum : isEnum es = true) (h : Doc.Unlisted "enum" es)
  | properties {v : Doc} (henum : isEnum es = false) (harray : hasType "array" es = false)
      (hv : Doc.field? "properties" es = some v) (hmap : v.isMap = false)
      (htruthy : v.isTruthy = true)
  | name {v : Doc} {ps : Fields} {p : Scalar × Doc} (henum : isEnum es = false)
      (harray : hasType "array" es = false) (hv : Doc.field? "properties" es = some v)
      (hps : v.opened = .map ps) (hp : p ∈ ps) (h : p.1.recordText? = none)
  | type (hproperties : has "properties" es = false) (h : (primaryType es).isKeyLike = false)

/-- A plain schema and one inside it: the items of an array, a property of an
object. -/
inductive Inside (es : Fields) : Doc → Prop
  | items {v : Doc} (henum : isEnum es = false) (harray : hasType "array" es = true)
      (hv : Doc.field? "items" es = some v) : Inside es v
  | property {v : Doc} {ps : Fields} {p : Scalar × Doc} (henum : isEnum es = false)
      (harray : hasType "array" es = false) (hv : Doc.field? "properties" es = some v)
      (hps : v.opened = .map ps) (hp : p ∈ ps) : Inside es p.2

/-- A reference to a component that is an object, whose name is all that is
kept of it. -/
def KeepsName (r : String) (ts : Fields) : Prop :=
  (Pointer.schemaId? r).isSome = true ∧ isObjectLike ts = true

/-- **A schema of which no shape can be made**, given the references already
followed: there is a flaw in it, or in a schema that has to be read for it. -/
inductive Flawed (root : Doc) : List String → Doc → Prop
  | reference {seen : List String} {es : Fields} {v : Doc}
      (hr : Doc.field? Pointer.key es = some v) (h : v.text? = none) : Flawed root seen (.map es)
  | members {seen : List String} {es ts : Fields} {r : String} {target : Doc}
      (hr : Doc.field? Pointer.key es = some (.text r)) (hs : r ∉ seen)
      (ht : Pointer.resolve r root = .ok target) (ho : target.opened = .map ts)
      (henum : isEnum ts = true) (h : Doc.Unlisted "enum" ts) : Flawed root seen (.map es)
  | behind {seen : List String} {es ts : Fields} {r : String} {target : Doc}
      (hr : Doc.field? Pointer.key es = some (.text r)) (hs : r ∉ seen)
      (ht : Pointer.resolve r root = .ok target) (ho : target.opened = .map ts)
      (henum : isEnum ts = false) (hname : ¬ KeepsName r ts)
      (h : Flawed root (r :: seen) target) : Flawed root seen (.map es)
  | composition {seen : List String} {es : Fields} {name : String}
      (hr : Doc.field? Pointer.key es = none) (hn : name ∈ compositionNames)
      (h : Doc.Unlisted name es) : Flawed root seen (.map es)
  | member {seen : List String} {es : Fields} {ms : List Doc} {m : Doc}
      (hr : Doc.field? Pointer.key es = none) (hms : compositionMembers es = .ok ms) (hm : m ∈ ms)
      (hnull : isNullPlaceholder m = false) (h : Flawed root seen m) : Flawed root seen (.map es)
  | own {seen : List String} {es : Fields} (hp : Plain es) (h : OwnFlaw es) :
      Flawed root seen (.map es)
  | inside {seen : List String} {es : Fields} {v : Doc} (hp : Plain es) (hv : Inside es v)
      (h : Flawed root seen v) : Flawed root seen (.map es)
  | loop {seen : List String} {id : Nat} {v : Doc} (h : Flawed root seen v) :
      Flawed root seen (.loop id v)
  | endless {seen : List String} : Flawed root seen .endless

variable {root : Doc} {seen : List String} {es : Fields}

/-! ### Which schemas are flawed -/

theorem not_flawed_of_seen {r : String} (hr : Doc.field? Pointer.key es = some (.text r))
    (hs : r ∈ seen) : ¬ Flawed root seen (.map es) := by
  intro h
  cases h with
  | reference hr' hv => simp_all [Doc.text?]
  | own hp | inside hp => simp_all [hp.no_reference]
  | _ => simp_all

/-- A reference that is followed is flawed by what it leads to. -/
theorem flawed_of_text {r : String} (hr : Doc.field? Pointer.key es = some (.text r))
    (hs : r ∉ seen) : Flawed root seen (.map es) ↔
      ∃ target ts, Pointer.resolve r root = .ok target ∧ target.opened = .map ts ∧
        (isEnum ts = true ∧ Doc.Unlisted "enum" ts ∨
          isEnum ts = false ∧ ¬ KeepsName r ts ∧ Flawed root (r :: seen) target) := by
  constructor
  · intro h
    cases h with
    | reference hr' hv => simp_all [Doc.text?]
    | members hr' _ ht ho henum h =>
      obtain rfl : r = _ := by simpa [hr] using hr'
      exact ⟨_, _, ht, ho, .inl ⟨henum, h⟩⟩
    | behind hr' _ ht ho henum hname h =>
      obtain rfl : r = _ := by simpa [hr] using hr'
      exact ⟨_, _, ht, ho, .inr ⟨henum, hname, h⟩⟩
    | own hp | inside hp => simp_all [hp.no_reference]
    | _ => simp_all
  · rintro ⟨target, ts, ht, ho, ⟨henum, h⟩ | ⟨henum, hname, h⟩⟩
    · exact .members hr hs ht ho henum h
    · exact .behind hr hs ht ho henum hname h

/-- A composition is flawed by its members. -/
theorem flawed_of_composition {ms : List Doc} (hr : Doc.field? Pointer.key es = none)
    (hms : compositionMembers es = .ok ms) (hne : ms ≠ []) :
    Flawed root seen (.map es) ↔
      ∃ m ∈ ms.filter fun m => !isNullPlaceholder m, Flawed root seen m := by
  simp only [List.mem_filter, Bool.not_eq_true']
  constructor
  · intro h
    cases h with
    | composition _ hn h => exact absurd hms ((Doc.elementsUnder_stopsAt es _).ne_ok ⟨_, hn, h⟩ _)
    | member _ hms' hm hnull h =>
      obtain rfl : ms = _ := by simpa [hms] using hms'
      exact ⟨_, ⟨hm, hnull⟩, h⟩
    | own hp | inside hp => simp_all [hp.no_member]
    | _ => simp_all
  · rintro ⟨m, ⟨hm, hnull⟩, h⟩
    exact .member hr hms hm hnull h

theorem flawed_of_plain (hp : Plain es) :
    Flawed root seen (.map es) ↔ OwnFlaw es ∨ ∃ v, Inside es v ∧ Flawed root seen v := by
  constructor
  · intro h
    cases h with
    | composition _ hn h =>
      exact absurd hp.no_member ((Doc.elementsUnder_stopsAt es _).ne_ok ⟨_, hn, h⟩ _)
    | own _ h => exact .inl h
    | inside _ hv h => exact .inr ⟨_, hv, h⟩
    | member _ hms hm => simp_all [hp.no_member]
    | _ => simp_all [hp.no_reference]
  · rintro (h | ⟨v, hv, h⟩)
    · exact .own hp h
    · exact .inside hp hv h

/-! ### Plain schemas -/

theorem isKeyLike_of_hasType {name : String} (h : hasType name es = true) :
    (primaryType es).isKeyLike = true := by
  unfold hasType at h
  split at h
  · next t ht => simp [ht, Doc.isKeyLike]
  · cases h

theorem isKeyLike_of_isEnum (h : isEnum es = true) : (primaryType es).isKeyLike = true := by
  obtain ⟨-, h⟩ := Bool.and_eq_true_iff.1 h
  rcases Bool.or_eq_true_iff.1 h with h | h
  · unfold isUntyped at h
    split at h
    · next ht => simp [ht, Doc.isKeyLike]
    · cases h
  · exact isKeyLike_of_hasType h

theorem ownFlaw_of_isEnum (h : isEnum es = true) : OwnFlaw es ↔ Doc.Unlisted "enum" es := by
  constructor
  · intro hflaw
    cases hflaw with
    | members _ h => exact h
    | type _ ht => simp [isKeyLike_of_isEnum h] at ht
    | _ => simp_all
  · exact .members h

theorem not_ownFlaw_of_array (h : isEnum es = false) (harray : hasType "array" es = true) :
    ¬ OwnFlaw es := by
  intro hflaw
  cases hflaw with
  | type _ ht => simp [isKeyLike_of_hasType harray] at ht
  | _ => simp_all

/-- An object has a flaw when its properties are no mapping, or one of their
names is no text. -/
theorem ownFlaw_of_properties {v : Doc} (h : isEnum es = false)
    (harray : hasType "array" es = false) (hv : Doc.field? "properties" es = some v) :
    OwnFlaw es ↔ v.isMap = false ∧ v.isTruthy = true ∨
      ∃ ps, v.opened = .map ps ∧ ∃ p ∈ ps, p.1.recordText? = none := by
  constructor
  · intro hflaw
    cases hflaw with
    | members henum => simp_all
    | properties _ _ hv' hmap htruthy =>
      obtain rfl : v = _ := by simpa [hv] using hv'
      exact .inl ⟨hmap, htruthy⟩
    | name _ _ hv' hps hp hname =>
      obtain rfl : v = _ := by simpa [hv] using hv'
      exact .inr ⟨_, hps, _, hp, hname⟩
    | type hproperties => simp [has, hv] at hproperties
  · rintro (⟨hmap, htruthy⟩ | ⟨ps, hps, p, hp, hname⟩)
    · exact .properties h harray hv hmap htruthy
    · exact .name h harray hv hps hp hname

theorem ownFlaw_of_no_properties (h : isEnum es = false)
    (hv : Doc.field? "properties" es = none) :
    OwnFlaw es ↔ (primaryType es).isKeyLike = false := by
  constructor
  · intro hflaw
    cases hflaw with
    | type _ ht => exact ht
    | _ => simp_all
  · exact .type (by simp [has, hv])

theorem not_inside_of_isEnum {v : Doc} (h : isEnum es = true) : ¬ Inside es v := by
  intro hv
  cases hv <;> simp_all

theorem inside_of_array {v : Doc} (h : isEnum es = false) (harray : hasType "array" es = true) :
    Inside es v ↔ Doc.field? "items" es = some v := by
  constructor
  · intro hv
    cases hv with
    | items _ _ hv => exact hv
    | property => simp_all
  · exact .items h harray

theorem inside_of_properties {v w : Doc} (h : isEnum es = false)
    (harray : hasType "array" es = false) (hv : Doc.field? "properties" es = some v) :
    Inside es w ↔ ∃ ps, v.opened = .map ps ∧ ∃ p ∈ ps, p.2 = w := by
  constructor
  · intro hw
    cases hw with
    | items => simp_all
    | property _ _ hv' hps hp =>
      obtain rfl : v = _ := by simpa [hv] using hv'
      exact ⟨_, hps, _, hp, rfl⟩
  · rintro ⟨ps, hps, p, hp, rfl⟩
    exact .property h harray hv hps hp

theorem not_inside {v : Doc} (harray : hasType "array" es = false)
    (hv : Doc.field? "properties" es = none) : ¬ Inside es v := by
  intro h
  cases h <;> simp_all

/-- An object whose properties are a mapping is flawed by one of them, or by
the name of one. -/
theorem flawed_of_properties {v : Doc} {ps : Fields} (hp : Plain es) (h : isEnum es = false)
    (harray : hasType "array" es = false) (hv : Doc.field? "properties" es = some v)
    (hps : v.opened = .map ps) : Flawed root seen (.map es) ↔
      (∃ p ∈ ps, Flawed root seen p.2) ∨ ∃ p ∈ ps, p.1.recordText? = none := by
  have hmap : v.isMap = true := by simp [Doc.isMap, hps]
  have hown : OwnFlaw es ↔ ∃ p ∈ ps, p.1.recordText? = none := by
    simp [ownFlaw_of_properties h harray hv, hmap, hps]
  have hinside : ∀ w, Inside es w ↔ ∃ p ∈ ps, p.2 = w := by
    simp [inside_of_properties h harray hv, hps]
  rw [flawed_of_plain hp, hown, or_comm]
  refine or_congr_left ⟨?_, ?_⟩
  · rintro ⟨w, hw, hflaw⟩
    obtain ⟨p, hp, rfl⟩ := (hinside w).1 hw
    exact ⟨p, hp, hflaw⟩
  · rintro ⟨p, hp, hflaw⟩
    exact ⟨p.2, (hinside p.2).2 ⟨p, hp, rfl⟩, hflaw⟩

/-- Properties that count as absent are no flaw. -/
theorem not_flawed_of_falsy {v : Doc} (hp : Plain es) (h : isEnum es = false)
    (harray : hasType "array" es = false) (hv : Doc.field? "properties" es = some v)
    (hmap : ∀ ps, v.opened = .map ps → False) (hfalsy : v.isTruthy = false) :
    ¬ Flawed root seen (.map es) := by
  rw [flawed_of_plain hp, ownFlaw_of_properties h harray hv]
  rintro ((⟨-, htruthy⟩ | ⟨ps, hps, -⟩) | ⟨w, hw, -⟩)
  · simp [hfalsy] at htruthy
  · exact hmap ps hps
  · obtain ⟨ps, hps, -⟩ := (inside_of_properties h harray hv).1 hw
    exact hmap ps hps

theorem flawed_of_no_properties (hp : Plain es) (h : isEnum es = false)
    (harray : hasType "array" es = false) (hv : Doc.field? "properties" es = none) :
    Flawed root seen (.map es) ↔ (primaryType es).isKeyLike = false := by
  simp [flawed_of_plain hp, ownFlaw_of_no_properties h hv, not_inside harray hv]

/-! ### Reading -/

theorem enumShape_stopsAt (typeName : Option String) (nullable : Bool) (es : Fields) :
    (enumShape typeName nullable es).StopsAt (Doc.Unlisted "enum" es) := by
  refine StopsAt.bind_ok _ ?_
  unfold enumInfo
  cases h : Doc.field? "enum" es with
  | none => exact .ok _ (Doc.not_unlisted h)
  | some v => exact (v.elements_stopsAt.congr (Doc.unlisted_iff h).symm).bind_ok _

theorem primitiveKind_stopsAt (es : Fields) :
    (primitiveKind es).StopsAt ((primaryType es).isKeyLike = false) := by
  unfold primitiveKind
  split
  iterate 4
    · next h => exact .ok _ (by simp [h, Doc.isKeyLike])
  · split
    · next h => exact .ok _ (by simp [h])
    · next h => exact .defect _ (by simpa using h)

theorem namedProperties_stopsAt (ps : List (Scalar × Shape)) :
    (namedProperties ps).StopsAt (∃ p ∈ ps, p.1.recordText? = none) := by
  unfold namedProperties
  split
  · next h => exact .ok _ (by simpa [areNamed, Option.isSome_iff_ne_none] using h)
  · next h => exact .defect _ (by simpa [areNamed] using h)

/-- Properties keep their names when they are read. -/
theorem names_of_mapAll {f : Doc → Outcome Shape} {ps : Fields} {shapes : List (Scalar × Shape)}
    (h : Outcome.mapAll (fun p => do
      let s ← f p.2
      pure (p.1, s)) ps = .ok shapes) : shapes.map Prod.fst = ps.map Prod.fst := by
  have hall := forall₂_of_mapAll h
  clear h
  induction hall with
  | nil => rfl
  | cons hp _ ih =>
    obtain ⟨s, -, hs⟩ := bind_eq_ok.1 hp
    obtain rfl := pure_eq_ok.1 hs
    simp [ih]

theorem namedProperties_stopsAt_of_read {f : Doc → Outcome Shape} {ps : Fields}
    {shapes : List (Scalar × Shape)}
    (h : Outcome.mapAll (fun p => do
      let s ← f p.2
      pure (p.1, s)) ps = .ok shapes) :
    (namedProperties shapes).StopsAt (∃ p ∈ ps, p.1.recordText? = none) := by
  refine (namedProperties_stopsAt shapes).congr ?_
  have hnames : (∃ k ∈ shapes.map Prod.fst, k.recordText? = none) ↔
      ∃ k ∈ ps.map Prod.fst, k.recordText? = none := by
    rw [names_of_mapAll h]
  simpa using hnames

/-- **The reading of a schema stops at its flaws.** -/
theorem shapeFrom_stopsAt (root schema : Doc) (seen : List String) :
    (shapeFrom root schema seen).StopsAt (Flawed root seen schema) := by
  fun_induction shapeFrom root schema seen with
  | case1 seen es r hr hs e ht => exact (Pointer.resolve_stopsAt r root).error ht False.elim
  | case2 seen es r hr hs target ht ts ho typeName henum =>
    have hs : r ∉ seen := by simpa using hs
    refine (enumShape_stopsAt typeName false ts).congr ?_
    simp [flawed_of_text hr hs, ht, ho, henum]
  | case3 seen es r hr hs target ht ts ho typeName henum hname =>
    have hs : r ∉ seen := by simpa using hs
    have hname : KeepsName r ts := by simpa [KeepsName, typeName] using hname
    exact .ok _ (by simp [flawed_of_text hr hs, ht, ho, henum, hname])
  | case4 seen es r hr hs target ht ts ho typeName henum hname ih =>
    have hs : r ∉ seen := by simpa using hs
    have hname : ¬ KeepsName r ts := by simpa [KeepsName, typeName] using hname
    refine ih.congr ?_
    simp [flawed_of_text hr hs, ht, ho, henum, hname]
  | case5 seen es r hr hs target ht hmap =>
    have hs : r ∉ seen := by simpa using hs
    refine .ok _ ?_
    simp only [flawed_of_text hr hs, ht, Except.ok.injEq]
    rintro ⟨_, ts, rfl, ho, -⟩
    exact hmap ts ho
  | case6 seen es r hr hs => exact .ok _ (not_flawed_of_seen hr (by simpa using hs))
  | case7 seen es v hv hr =>
    exact Pointer.refDefect_stopsAt v (.reference hr (Doc.text?_eq_none hv))
  | case8 seen es hr e hm =>
    refine (Doc.elementsUnder_stopsAt es compositionNames).error hm ?_
    rintro ⟨name, hname, h⟩
    exact .composition hr hname h
  | case9 seen es hr first more hm ih =>
    have hiff : Flawed root seen (.map es) ↔ _ :=
      flawed_of_composition hr hm (List.cons_ne_nil _ _)
    exact ((StopsAt.mapMem ih).bind_ok _).congr hiff.symm
  | case10 seen es hr hm nullable henum =>
    refine (enumShape_stopsAt none nullable es).congr ?_
    simp [flawed_of_plain ⟨hr, hm⟩, ownFlaw_of_isEnum henum, not_inside_of_isEnum henum]
  | case11 seen es hr hm nullable henum harray v hi ih =>
    have henum : isEnum es = false := by simpa using henum
    refine (ih.bind_ok _).congr ?_
    simp [flawed_of_plain ⟨hr, hm⟩, not_ownFlaw_of_array henum harray, inside_of_array henum harray,
      hi]
  | case12 seen es hr hm nullable henum harray hi =>
    have henum : isEnum es = false := by simpa using henum
    refine .ok _ ?_
    simp [flawed_of_plain ⟨hr, hm⟩, not_ownFlaw_of_array henum harray, inside_of_array henum harray,
      hi]
  | case13 seen es hr hm nullable henum harray hobject next v hp ps ho ih =>
    have henum : isEnum es = false := by simpa using henum
    have harray : hasType "array" es = false := by simpa using harray
    -- the properties are read before their names are looked at
    have hread := StopsAt.mapMem fun p hp => (ih p hp).bind_ok (Prod.mk p.1)
    refine (hread.bind fun shapes hshapes => StopsAt.bind_ok _ ?_).congr
      (flawed_of_properties ⟨hr, hm⟩ henum harray hp ho).symm
    rw [mapMem_eq] at hshapes
    exact namedProperties_stopsAt_of_read (f := fun w => shapeFrom root w seen) hshapes
  | case14 seen es hr hm nullable henum harray hobject next v hp htruthy hmap =>
    have henum : isEnum es = false := by simpa using henum
    have harray : hasType "array" es = false := by simpa using harray
    have hflaw := OwnFlaw.properties henum harray hp (Doc.isMap_eq_false hmap) htruthy
    exact .defect _ (.own ⟨hr, hm⟩ hflaw)
  | case15 seen es hr hm nullable henum harray hobject next v hp hfalsy hmap =>
    have henum : isEnum es = false := by simpa using henum
    have harray : hasType "array" es = false := by simpa using harray
    exact .ok _ (not_flawed_of_falsy ⟨hr, hm⟩ henum harray hp hmap (by simpa using hfalsy))
  | case16 seen es hr hm nullable henum harray hobject next hp =>
    have henum : isEnum es = false := by simpa using henum
    have harray : hasType "array" es = false := by simpa using harray
    have htype : hasType "object" es = true := by simpa [has, hp] using hobject
    refine .ok _ ?_
    simp [flawed_of_no_properties ⟨hr, hm⟩ henum harray hp, isKeyLike_of_hasType htype]
  | case17 seen es hr hm nullable henum harray hobject =>
    have henum : isEnum es = false := by simpa using henum
    have harray : hasType "array" es = false := by simpa using harray
    have hp : Doc.field? "properties" es = none := by simp_all [has]
    refine ((primitiveKind_stopsAt es).bind_ok _).congr ?_
    exact (flawed_of_no_properties ⟨hr, hm⟩ henum harray hp).symm
  | case18 seen id v ih =>
    refine ih.congr ⟨.loop, ?_⟩
    intro h
    cases h with
    | loop h => exact h
  | case19 => exact .defect _ .endless
  | case20 seen schema hmap hloop hendless =>
    refine .ok _ ?_
    intro h
    cases h with
    | loop => exact hloop _ _ rfl
    | endless => exact hendless rfl
    | _ => exact hmap _ rfl

theorem shapeOf_stopsAt (root schema : Doc) :
    (shapeOf root schema).StopsAt (Flawed root [] schema) :=
  shapeFrom_stopsAt root schema []

end Schema

end ApiSnippets
