import ApiSnippets.Schema.Pointer
/-!
# Descent through a document

Why walks over schemas end. A walk descends into parts of a schema, which are
less deep, and follows references, each text of which it follows once. A
reference found in the document leads to a value all of whose references are
in the document again (`refs_resolve`), so the references not yet followed
become fewer; only a schema from elsewhere can hold other references, and the
first one followed leads into the document.
-/

namespace ApiSnippets

namespace Doc

/-! ## Depth and references -/

mutual

/-- The number of containers around the deepest scalar. -/
def depth : Doc → Nat
  | scalar _ => 0
  | list items => depthItems items + 1
  | map es => depthEntries es + 1
  | set _ => 0
  | pair a b => max (depth a) (depth b) + 1
  | loop _ v => depth v + 1
  | endless => 0

/-- The greatest depth among items. -/
def depthItems : List Doc → Nat
  | [] => 0
  | v :: vs => max (depth v) (depthItems vs)

/-- The greatest depth among the values of entries. -/
def depthEntries : List (Scalar × Doc) → Nat
  | [] => 0
  | (_, v) :: es => max (depth v) (depthEntries es)

end

/-- The reference text an entry holds, if it is the entry of a reference. -/
def refOfEntry : Scalar → Doc → List String
  | .text k, .text r => if k = Pointer.key then [r] else []
  | _, _ => []

mutual

/-- Every reference text in a value. -/
def refs : Doc → List String
  | scalar _ => []
  | list items => refsItems items
  | map es => refsEntries es
  | set _ => []
  | pair a b => refs a ++ refs b
  | loop _ v => refs v
  | endless => []

/-- Every reference text in items. -/
def refsItems : List Doc → List String
  | [] => []
  | v :: vs => refs v ++ refsItems vs

/-- Every reference text in entries. -/
def refsEntries : List (Scalar × Doc) → List String
  | [] => []
  | (k, v) :: es => refOfEntry k v ++ refs v ++ refsEntries es

end

theorem field?_mem {name : String} {es : List (Scalar × Doc)} {v : Doc}
    (h : field? name es = some v) : (Scalar.text name, v) ∈ es := by
  induction es with
  | nil => simp [field?] at h
  | cons e es ih =>
    obtain ⟨k, w⟩ := e
    cases k with
    | text k =>
      simp only [field?] at h
      by_cases hk : k = name
      · subst hk; simp at h; subst h; exact List.mem_cons_self
      · simp [hk] at h; exact List.mem_cons_of_mem _ (ih h)
    | _ => simp only [field?] at h; exact List.mem_cons_of_mem _ (ih h)

theorem depth_le_items {v : Doc} {vs : List Doc} (h : v ∈ vs) : v.depth ≤ depthItems vs := by
  induction vs with
  | nil => simp at h
  | cons w vs ih =>
    rcases List.mem_cons.1 h with rfl | h
    · exact Nat.le_max_left _ _
    · exact Nat.le_trans (ih h) (Nat.le_max_right _ _)

theorem depth_le_entries {k : Scalar} {v : Doc} {es : List (Scalar × Doc)} (h : (k, v) ∈ es) :
    v.depth ≤ depthEntries es := by
  induction es with
  | nil => simp at h
  | cons e es ih =>
    obtain ⟨k', w⟩ := e
    rcases List.mem_cons.1 h with h | h
    · injection h with _ h; subst h; exact Nat.le_max_left _ _
    · exact Nat.le_trans (ih h) (Nat.le_max_right _ _)

theorem refs_subset_items {v : Doc} {vs : List Doc} (h : v ∈ vs) : v.refs ⊆ refsItems vs := by
  induction vs with
  | nil => simp at h
  | cons w vs ih =>
    rcases List.mem_cons.1 h with rfl | h
    · exact List.subset_append_left _ _
    · exact fun r hr => List.mem_append_right _ (ih h hr)

theorem refs_subset_entries {k : Scalar} {v : Doc} {es : List (Scalar × Doc)} (h : (k, v) ∈ es) :
    v.refs ⊆ refsEntries es := by
  induction es with
  | nil => simp at h
  | cons e es ih =>
    obtain ⟨k', w⟩ := e
    rcases List.mem_cons.1 h with h | h
    · injection h with _ h; subst h
      exact fun r hr => List.mem_append_left _ (List.mem_append_right _ hr)
    · exact fun r hr => List.mem_append_right _ (ih h hr)

/-- The reference of a mapping is among its references. -/
theorem mem_refs_of_entry {r : String} {es : List (Scalar × Doc)}
    (h : (Scalar.text Pointer.key, Doc.text r) ∈ es) : r ∈ refsEntries es := by
  induction es with
  | nil => simp at h
  | cons e es ih =>
    obtain ⟨k', w⟩ := e
    rcases List.mem_cons.1 h with h | h
    · injection h with hk hw
      subst hk hw
      exact List.mem_append_left _ (List.mem_append_left _ (by simp [refOfEntry]))
    · exact List.mem_append_right _ (ih h)

/-! ## Parts -/

/-- A value at a smaller depth that brings no reference of its own. -/
def IsPart (v w : Doc) : Prop :=
  v.depth < w.depth ∧ v.refs ⊆ w.refs

theorem isPart_of_entry {k : Scalar} {v : Doc} {es : List (Scalar × Doc)} (h : (k, v) ∈ es) :
    IsPart v (map es) :=
  ⟨Nat.lt_succ_of_le (depth_le_entries h), refs_subset_entries h⟩

theorem isPart_of_item {v : Doc} {vs : List Doc} (h : v ∈ vs) : IsPart v (list vs) :=
  ⟨Nat.lt_succ_of_le (depth_le_items h), refs_subset_items h⟩

theorem isPart_first (a b : Doc) : IsPart a (pair a b) :=
  ⟨Nat.lt_succ_of_le (Nat.le_max_left _ _), List.subset_append_left _ _⟩

theorem isPart_second (a b : Doc) : IsPart b (pair a b) :=
  ⟨Nat.lt_succ_of_le (Nat.le_max_right _ _), List.subset_append_right _ _⟩

theorem isPart_loop (id : Nat) (v : Doc) : IsPart v (loop id v) :=
  ⟨Nat.lt_succ_self _, List.Subset.refl _⟩

theorem opened_eq_or_isPart (v : Doc) : v.opened = v ∨ IsPart v.opened v := by
  cases v with
  | loop id w => exact .inr (isPart_loop id w)
  | _ => exact .inl rfl

theorem refs_opened (v : Doc) : v.opened.refs = v.refs := by
  cases v <;> rfl

theorem IsPart.trans {u v w : Doc} (h : IsPart u v) (h' : IsPart v w) : IsPart u w :=
  ⟨Nat.lt_trans h.1 h'.1, fun _ hr => h'.2 (h.2 hr)⟩

/-- A part of an entry's value as it is opened is a part of the mapping. -/
theorem IsPart.of_opened {k : Scalar} {u v : Doc} {es : List (Scalar × Doc)}
    (h : IsPart u v.opened) (hv : (k, v) ∈ es) : IsPart u (map es) := by
  rcases opened_eq_or_isPart v with he | hp
  · exact (he ▸ h).trans (isPart_of_entry hv)
  · exact (h.trans hp).trans (isPart_of_entry hv)

theorem isPart_scalar_map (s : Scalar) (es : List (Scalar × Doc)) : IsPart (scalar s) (map es) :=
  ⟨Nat.succ_pos _, fun _ hr => by simp [refs] at hr⟩

/-! ## Iteration -/

/-- What iteration over a value yields: the items of a list, the keys of a
mapping, the members of a set, the characters of a text. -/
def elements (v : Doc) : Outcome (List Doc) :=
  match v.opened with
  | list items => .ok items
  | map es => .ok (es.map fun e => scalar e.1)
  | set ms => .ok (ms.map scalar)
  | pair a b => .ok [a, b]
  | text s => .ok (s.toList.map fun c => text (String.ofList [c]))
  | scalar (.octets bs) => .ok (bs.map fun b => scalar (.int b.toNat))
  | endless => .error (.defect .recursion)
  | _ => .error (.defect .type)

theorem isPart_of_elements {k : Scalar} {v m : Doc} {ms : List Doc} {es : List (Scalar × Doc)}
    (hv : (k, v) ∈ es) (hm : v.elements = .ok ms) (h : m ∈ ms) : IsPart m (map es) := by
  unfold elements at hm
  split at hm
  all_goals first
    | (simp only [Except.ok.injEq] at hm; subst hm)
    | simp at hm
  · next ho => exact IsPart.of_opened (ho ▸ isPart_of_item h) hv
  · obtain ⟨_, _, rfl⟩ := List.mem_map.1 h
    exact isPart_scalar_map _ _
  · obtain ⟨_, _, rfl⟩ := List.mem_map.1 h
    exact isPart_scalar_map _ _
  · next a b ho =>
    have hp : IsPart m (pair a b) := by
      rcases List.mem_cons.1 h with rfl | h
      · exact isPart_first _ _
      · rw [List.mem_singleton.1 h]; exact isPart_second _ _
    exact IsPart.of_opened (ho ▸ hp) hv
  all_goals
    obtain ⟨_, _, rfl⟩ := List.mem_map.1 h
    exact isPart_scalar_map _ _

/-- The elements of the members of a mapping under some names, none for a
name that is absent. -/
def elementsUnder (es : List (Scalar × Doc)) : List String → Outcome (List Doc)
  | [] => .ok []
  | name :: names => do
    let first ←
      match field? name es with
      | some v => v.elements
      | none => .ok []
    let more ← elementsUnder es names
    pure (first ++ more)

theorem isPart_of_elementsUnder {es : List (Scalar × Doc)} {names : List String} {ms : List Doc}
    {m : Doc} (h : elementsUnder es names = .ok ms) (hm : m ∈ ms) : IsPart m (map es) := by
  induction names generalizing ms with
  | nil => simp [elementsUnder] at h; subst h; simp at hm
  | cons name names ih =>
    simp only [elementsUnder] at h
    cases he : field? name es with
    | none =>
      simp only [he] at h
      cases hr : elementsUnder es names with
      | error e => simp [hr, bind, Except.bind] at h
      | ok rest =>
        simp [hr, bind, Except.bind, pure, Except.pure] at h
        subst h
        exact ih hr hm
    | some v =>
      simp only [he] at h
      cases hv : v.elements with
      | error e => simp [hv, bind, Except.bind] at h
      | ok first =>
        cases hr : elementsUnder es names with
        | error e => simp [hv, hr, bind, Except.bind] at h
        | ok rest =>
          simp [hv, hr, bind, Except.bind, pure, Except.pure] at h
          subst h
          rcases List.mem_append.1 hm with hm | hm
          · exact isPart_of_elements (field?_mem he) hv hm
          · exact ih hr hm

/-! ## References lead into the document -/

theorem refs_step {ref : String} {current next : Doc} {segment : List Char}
    (h : Pointer.step ref current segment = .ok next) : next.refs ⊆ current.refs := by
  unfold Pointer.step at h
  dsimp only at h
  rw [← refs_opened current]
  split at h
  · next ho =>
    rw [ho]
    split at h
    · next he => simp at h; subst h; exact refs_subset_entries (field?_mem he)
    · simp at h
  · next ho =>
    rw [ho]
    split at h
    · next he =>
      simp at h; subst h
      obtain ⟨n, _, hn⟩ := Option.bind_eq_some_iff.1 he
      unfold Pointer.itemAt? at hn
      split at hn
      · exact refs_subset_items (List.mem_of_getElem? hn)
      · split at hn
        · exact refs_subset_items (List.mem_of_getElem? hn)
        · simp at hn
    · simp at h
  · simp at h

theorem refs_follow {ref : String} {segments : List (List Char)} {current v : Doc}
    (h : Pointer.follow ref current segments = .ok v) : v.refs ⊆ current.refs := by
  induction segments generalizing current with
  | nil => simp [Pointer.follow] at h; subst h; exact List.Subset.refl _
  | cons s ss ih =>
    simp only [Pointer.follow] at h
    cases hs : Pointer.step ref current s with
    | error e => simp [hs, bind, Except.bind] at h
    | ok next =>
      simp only [hs, bind, Except.bind] at h
      exact fun r hr => refs_step hs (ih h hr)

/-- **A reference leads to a value whose references are in the document.** -/
theorem refs_resolve {ref : String} {root v : Doc} (h : Pointer.resolve ref root = .ok v) :
    v.refs ⊆ root.refs := by
  unfold Pointer.resolve at h
  split at h
  · exact refs_follow h
  · simp at h

/-! ## The measure -/

/-- Whether a schema holds a reference that the document does not. -/
def isForeign (root v : Doc) : Bool :=
  v.refs.any fun r => !root.refs.contains r

/-- The references of the document that are not among those followed. -/
def unfollowed (root : Doc) (seen : List String) : Nat :=
  (root.refs.filter fun r => !seen.contains r).length

/-- What becomes smaller with every step of a walk. -/
def walkMeasure (root v : Doc) (seen : List String) : Nat × Nat × Nat :=
  (if isForeign root v then 1 else 0, unfollowed root seen, v.depth)

/-- The order of the measure. -/
abbrev walkOrder : Nat × Nat × Nat → Nat × Nat × Nat → Prop :=
  Prod.Lex (· < ·) (Prod.Lex (· < ·) (· < ·))

theorem isForeign_eq_false_iff {root v : Doc} :
    isForeign root v = false ↔ v.refs ⊆ root.refs := by
  simp only [isForeign, List.any_eq_false, List.contains_iff_mem, Bool.not_eq_true,
    Bool.not_eq_false']
  constructor
  · intro h r hr; simpa using h r hr
  · intro h r hr; simpa using h hr

/-- Descending into a part makes the measure smaller. -/
theorem walkMeasure_part {root v w : Doc} {seen : List String} (h : IsPart v w) :
    walkOrder (walkMeasure root v seen) (walkMeasure root w seen) := by
  unfold walkMeasure
  cases hw : isForeign root w with
  | true =>
    cases hv : isForeign root v with
    | true => exact Prod.Lex.right _ (Prod.Lex.right _ h.1)
    | false => exact Prod.Lex.left _ _ (by simp)
  | false =>
    have hv : isForeign root v = false :=
      isForeign_eq_false_iff.2 fun r hr => isForeign_eq_false_iff.1 hw (h.2 hr)
    rw [hv]
    exact Prod.Lex.right _ (Prod.Lex.right _ h.1)

/-- What is seen for the first time is no longer among what has not been
seen. -/
theorem length_unseen_lt {xs seen : List String} {x : String} (hx : x ∈ xs) (hs : x ∉ seen) :
    (xs.filter fun s => !(x :: seen).contains s).length <
      (xs.filter fun s => !seen.contains s).length := by
  have hsplit : (xs.filter fun s => !(x :: seen).contains s) =
      (xs.filter fun s => !seen.contains s).filter (· != x) := by
    rw [List.filter_filter]
    exact List.filter_congr fun s _ => by rw [List.contains_cons, Bool.not_or]; rfl
  rw [hsplit]
  exact List.length_filter_lt_length_iff_exists.2
    ⟨x, List.mem_filter.2 ⟨hx, by simpa using hs⟩, by simp⟩

theorem unfollowed_lt {root : Doc} {seen : List String} {r : String} (hr : r ∈ root.refs)
    (hs : seen.contains r = false) : unfollowed root (r :: seen) < unfollowed root seen :=
  length_unseen_lt hr (by simpa using hs)

/-- Following a reference for the first time makes the measure smaller. -/
theorem walkMeasure_follow {root target : Doc} {seen : List String} {r : String}
    {es : List (Scalar × Doc)} (he : field? Pointer.key es = some (text r))
    (hs : seen.contains r = false) (ht : Pointer.resolve r root = .ok target) :
    walkOrder (walkMeasure root target (r :: seen)) (walkMeasure root (map es) seen) := by
  have htarget : isForeign root target = false := isForeign_eq_false_iff.2 (refs_resolve ht)
  unfold walkMeasure
  rw [htarget]
  cases hw : isForeign root (map es) with
  | true => exact Prod.Lex.left _ _ (by simp)
  | false =>
    have hr : r ∈ root.refs :=
      isForeign_eq_false_iff.1 hw (mem_refs_of_entry (field?_mem he))
    exact Prod.Lex.right _ (Prod.Lex.left _ _ (unfollowed_lt hr hs))

end Doc

end ApiSnippets
