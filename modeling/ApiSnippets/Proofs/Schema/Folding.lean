import ApiSnippets.Proofs.Schema.Inline
/-!
# Folding compositions

A composition has three ways to a shape: a named object among its members, the
union of objects that are all without a name, and the members' kinds in the
order of their priority. Together they follow one rule, which does not see the
order of the members nor the lists they stand in (`shapeFrom_ignores_order`):
the kind of highest priority wins, one member that allows null suffices, and
where no member is an object the formats are united.
-/

namespace ApiSnippets

namespace Schema

variable {root v v' m : Doc} {es es' : Fields} {members members' : List Doc} {seen : List String}
  {shapes : List Shape} {s : Shape} {kind kind' : SchemaKind} {occurs occurs' : SchemaKind → Prop}
  {f : String}

/-! ## The kind of highest priority -/

/-- That a kind has the highest priority of those that occur. It is unknown
where none occurs that has a priority. -/
inductive IsTopKind (occurs : SchemaKind → Prop) : SchemaKind → Prop
  | first {kind : SchemaKind} {before after : List SchemaKind} :
      kindPriority = before ++ kind :: after → occurs kind → (∀ other ∈ before, ¬ occurs other) →
      IsTopKind occurs kind
  | unknown : (∀ kind ∈ kindPriority, ¬ occurs kind) → IsTopKind occurs .unknown

theorem isTopKind_object (h : occurs .object) : IsTopKind occurs .object := by
  have hfirst : kindPriority = [] ++ .object :: kindPriority.tail := rfl
  exact .first hfirst h (by simp)

open Classical in
/-- The top kind is what a search in the order of priority finds. -/
theorem IsTopKind.eq_getD (h : IsTopKind occurs kind) :
    (kindPriority.find? fun k => decide (occurs k)).getD .unknown = kind := by
  cases h with
  | @first _ before after hsplit hoccurs hbefore =>
    have hfind : (kindPriority.find? fun k => decide (occurs k)) = some kind := by
      refine List.find?_eq_some_iff_append.2 ⟨decide_eq_true hoccurs, before, after, hsplit, ?_⟩
      intro other hother
      simpa using hbefore other hother
    rw [hfind, Option.getD_some]
  | unknown hnone =>
    have hfind : (kindPriority.find? fun k => decide (occurs k)) = none := by
      refine List.find?_eq_none.2 fun k hk => ?_
      simpa using hnone k hk
    rw [hfind, Option.getD_none]

/-- Where the same kinds occur there is one top kind. -/
theorem IsTopKind.unique (h : IsTopKind occurs kind) (h' : IsTopKind occurs' kind')
    (hsame : ∀ k, occurs k ↔ occurs' k) : kind = kind' := by
  obtain rfl : occurs = occurs' := funext fun k => propext (hsame k)
  exact h.eq_getD.symm.trans h'.eq_getD

/-! ## One fold -/

/-- **A composition is of the top kind of its members**, whichever way it is
folded. -/
theorem isTopKind_fold (es : Fields) (members : List Doc) (shapes : List Shape) :
    IsTopKind (fun k => ∃ s ∈ shapes, s.kind = k) (fold es members shapes).kind := by
  -- a named object is first, then objects alone, and then the kinds in their order
  unfold fold
  dsimp only
  split
  · next s hs =>
    have hnamed := List.find?_some hs
    have hobject : s.kind = .object := by
      simp only [isNamedObject, Bool.and_eq_true, beq_iff_eq] at hnamed
      exact hnamed.1
    rw [hobject]
    exact isTopKind_object ⟨s, List.mem_of_find?_eq_some hs, hobject⟩
  split
  · next hall =>
    obtain ⟨hne, hobjects⟩ := Bool.and_eq_true_iff.1 hall
    obtain ⟨s, hs⟩ := List.exists_mem_of_ne_nil shapes (by simpa using hne)
    refine isTopKind_object ⟨s, hs, ?_⟩
    simpa using List.all_eq_true.1 hobjects s hs
  split
  · next s hs =>
    obtain ⟨before, kind, after, hsplit, hfound, hbefore⟩ := List.findSome?_eq_some_iff.1 hs
    have hkind : s.kind = kind := by simpa using List.find?_some hfound
    rw [hkind]
    refine .first hsplit ⟨s, List.mem_of_find?_eq_some hfound, hkind⟩ ?_
    rintro other hother ⟨t, ht, hkind'⟩
    have hnone := List.find?_eq_none.1 (hbefore other hother) t ht
    simp [hkind'] at hnone
  · next hnone =>
    refine .unknown ?_
    rintro kind hkind ⟨s, hs, rfl⟩
    have hno := List.find?_eq_none.1 (List.findSome?_eq_none_iff.1 hnone _ hkind) s hs
    simp at hno

theorem nullable_fold (es : Fields) (members : List Doc) (shapes : List Shape) :
    (fold es members shapes).nullable = isNullable es members := by
  unfold fold
  dsimp only
  split
  · rfl
  split
  · rfl
  split <;> rfl

theorem mem_addFormats {formats more : List String} :
    f ∈ addFormats formats more ↔ f ∈ formats ∨ f ∈ more := by
  unfold addFormats
  induction more generalizing formats with
  | nil => simp
  | cons g more ih =>
    rw [List.foldl_cons, ih]
    split
    · next hcontains =>
      have hmem : g ∈ formats := by simpa using hcontains
      simp only [List.mem_cons]
      constructor
      · rintro (h | h)
        · exact .inl h
        · exact .inr (.inr h)
      · rintro (h | rfl | h)
        · exact .inl h
        · exact .inl hmem
        · exact .inr h
    · rw [List.mem_append, List.mem_singleton, List.mem_cons, or_assoc]

theorem mem_unitedFormats :
    f ∈ unitedFormats es shapes ↔ f ∈ formatOf es ∨ ∃ s ∈ shapes, f ∈ s.formats := by
  unfold unitedFormats
  generalize formatOf es = formats
  induction shapes generalizing formats with
  | nil => simp
  | cons s shapes ih =>
    rw [List.foldl_cons, ih, mem_addFormats, List.exists_mem_cons_iff, or_assoc]

/-- Without an object among the members the formats are united. -/
theorem formats_fold (hno : ∀ s ∈ shapes, s.kind ≠ .object) :
    (fold es members shapes).formats = unitedFormats es shapes := by
  have hunnamed : shapes.find? isNamedObject = none := by
    refine List.find?_eq_none.2 fun s hs => ?_
    simp [isNamedObject, hno s hs]
  have hall : ¬ (!shapes.isEmpty && shapes.all fun s => s.kind == .object) = true := by
    intro hall
    obtain ⟨hne, hobjects⟩ := Bool.and_eq_true_iff.1 hall
    obtain ⟨s, hs⟩ := List.exists_mem_of_ne_nil shapes (by simpa using hne)
    exact hno s hs (by simpa using List.all_eq_true.1 hobjects s hs)
  rw [fold, hunnamed]
  simp only [if_neg hall]
  split <;> rfl

/-! ## Compositions -/

/-- That a schema is a composition of these members, in whichever of its lists
they stand, and no reference. -/
structure Composes (v : Doc) (es : Fields) (members : List Doc) : Prop where
  opened : v.opened = .map es
  noRef : Doc.field? Pointer.key es = none
  composed : compositionMembers es = .ok members
  ne_nil : members ≠ []

/-- The shapes of the members that do not only allow null. -/
def MemberShape (root : Doc) (members : List Doc) (seen : List String) (t : Shape) : Prop :=
  ∃ m ∈ members, isNullPlaceholder m = false ∧ shapeFrom root m seen = .ok t

theorem Composes.shapeFrom_eq (h : Composes v es members) :
    shapeFrom root v seen =
      Outcome.mapAll (fun m => shapeFrom root m seen)
        (members.filter fun m => !isNullPlaceholder m) >>= fun shapes =>
          .ok (fold es members shapes) := by
  rw [shapeFrom_opened, h.opened, shapeFrom_of_members h.noRef h.composed h.ne_nil]

/-- A composition has a shape exactly when the members have that count. -/
theorem Composes.exists_shape_iff (h : Composes v es members) :
    (∃ s, shapeFrom root v seen = .ok s) ↔
      ∀ m ∈ members, isNullPlaceholder m = false → ∃ t, shapeFrom root m seen = .ok t := by
  have hcount : ∀ m, m ∈ members.filter (fun m => !isNullPlaceholder m) ↔
      m ∈ members ∧ isNullPlaceholder m = false := by
    simp
  simp only [h.shapeFrom_eq, ← and_imp, ← hcount, ← Outcome.exists_mapAll_eq_ok_iff]
  constructor
  · rintro ⟨s, hs⟩
    obtain ⟨shapes, hshapes, -⟩ := Outcome.bind_eq_ok.1 hs
    exact ⟨shapes, hshapes⟩
  · rintro ⟨shapes, hshapes⟩
    exact ⟨_, Outcome.bind_eq_ok.2 ⟨shapes, hshapes, rfl⟩⟩

/-- The shape of a composition is folded from those of its members. -/
theorem Composes.exists_fold (h : Composes v es members) (hs : shapeFrom root v seen = .ok s) :
    ∃ shapes, s = fold es members shapes ∧ ∀ t, t ∈ shapes ↔ MemberShape root members seen t := by
  rw [h.shapeFrom_eq] at hs
  obtain ⟨shapes, hshapes, hs⟩ := Outcome.bind_eq_ok.1 hs
  refine ⟨shapes, (Except.ok.inj hs).symm, fun t => ?_⟩
  rw [Outcome.mem_of_mapAll hshapes, MemberShape]
  simp only [List.mem_filter, Bool.not_eq_true', and_assoc]

theorem isNullable_perm (hperm : members'.Perm members)
    (hset : isSet "nullable" es' = isSet "nullable" es) :
    isNullable es' members' = isNullable es members := by
  unfold isNullable
  rw [hset, hperm.any_eq]

theorem memberShape_perm (hperm : members'.Perm members) (t : Shape) :
    MemberShape root members' seen t ↔ MemberShape root members seen t := by
  simp only [MemberShape, hperm.mem_iff]

/-- **The order of the members does not count.** A composition that has a shape
is of the top kind of its members, those that only allow null set aside. Every
composition of the same members in another order or in other lists has a shape
too, of the same kind, and allows null alike if the schemas themselves do.
Without an object among the members the formats are those of the schema and of
all of these members. -/
theorem shapeFrom_ignores_order (h : Composes v es members)
    (hs : shapeFrom root v seen = .ok s) :
    IsTopKind (fun k => ∃ t, MemberShape root members seen t ∧ t.kind = k) s.kind ∧
    (∀ v' es' members', Composes v' es' members' → members'.Perm members →
      isSet "nullable" es' = isSet "nullable" es →
      ∃ s', shapeFrom root v' seen = .ok s' ∧ s'.kind = s.kind ∧ s'.nullable = s.nullable) ∧
    ((∀ t, MemberShape root members seen t → t.kind ≠ .object) →
      ∀ f, f ∈ s.formats ↔
        f ∈ formatOf es ∨ ∃ t, MemberShape root members seen t ∧ f ∈ t.formats) := by
  obtain ⟨shapes, rfl, hshapes⟩ := h.exists_fold hs
  simp only [← hshapes]
  have htop := isTopKind_fold es members shapes
  refine ⟨htop, ?_, ?_⟩
  · intro v' es' members' h' hperm hset
    have hall := h.exists_shape_iff.1 ⟨_, hs⟩
    obtain ⟨s', hs'⟩ := h'.exists_shape_iff.2 fun m hm => hall m (hperm.mem_iff.1 hm)
    obtain ⟨shapes', rfl, hshapes'⟩ := h'.exists_fold hs'
    refine ⟨_, hs', ?_, ?_⟩
    · refine (isTopKind_fold es' members' shapes').unique htop fun k => ?_
      simp only [hshapes, hshapes', memberShape_perm hperm]
    · rw [nullable_fold, nullable_fold, isNullable_perm hperm hset]
  · intro hno f
    rw [formats_fold hno, mem_unitedFormats]

/-- A number, a text that may be null, and what only allows null. -/
def numericMembers : List Doc :=
  [.map [(.text "type", .text "number"), (.text "format", .text "double")],
    .map [(.text "type", .text "string"), (.text "format", .text "decimal")],
    .map [(.text "type", .text "object"), (.text "nullable", .scalar (.bool true))]]

/-- The members in one list. -/
def numericFields : Fields :=
  [(.text "anyOf", .list numericMembers)]

/-- The members in another order, in two lists. -/
def numericFields' : Fields :=
  [(.text "allOf", .list (numericMembers.take 1)),
    (.text "oneOf", .list (numericMembers.drop 1).reverse)]

theorem shapeFrom_ignores_order_numeric :
    Composes (.map numericFields) numericFields numericMembers ∧
      shapeFrom .null (.map numericFields) [] =
        .ok { kind := .number, formats := ["double", "decimal"], nullable := true } ∧
      ∃ s', shapeFrom .null (.map numericFields') [] = .ok s' ∧ s'.kind = .number ∧
        s'.nullable = true := by
  have hcomposes : Composes (.map numericFields) numericFields numericMembers :=
    ⟨rfl, rfl, rfl, by simp [numericMembers]⟩
  have hcomposes' : Composes (.map numericFields') numericFields'
      ((numericMembers.drop 1).reverse ++ numericMembers.take 1) :=
    ⟨rfl, rfl, rfl, by simp [numericMembers]⟩
  have hperm : ((numericMembers.drop 1).reverse ++ numericMembers.take 1).Perm numericMembers := by
    refine List.perm_append_comm.trans ?_
    exact (List.Perm.append_left _ (List.reverse_perm _)).trans (by simp [numericMembers])
  have hshape : shapeFrom .null (.map numericFields) [] =
      .ok { kind := .number, formats := ["double", "decimal"], nullable := true } := by
    cbv
  exact ⟨hcomposes, hshape,
    (shapeFrom_ignores_order hcomposes hshape).2.1 _ _ _ hcomposes' hperm rfl⟩

end Schema

end ApiSnippets
