import ApiSnippets.Proofs.Resolution.Casts
/-!
# The nearest of several schemas

A name that no schema has is looked up by its last component, which several
schemas may share. Near a namespace a schema that lies in it is taken, else the
least of those that share most leading components with it; near none the least
of all is taken (`find?_by_component`). So the order in which a description
lists its schemas does not matter. All of this takes names that are texts: one
name that is spelled in octets has no components, and the look-up fails beside
it. The empty namespace is near nothing (`find?_beside_octets`).
-/

namespace ApiSnippets

namespace Catalog

open Text (sameLetters lastComponent leadingComponents)

variable {ids ids' : List String} {name near id other : String}

theorem sameLetters_iff {s t : String} : sameLetters s t = true ↔ Text.lower s = Text.lower t := by
  simp [sameLetters]

/-! ## The first greatest element -/

section FirstGreatest

variable {α : Type} {score : α → Nat} {xs : List α} {y : α}

theorem firstGreatest_eq_none_iff : firstGreatest score xs = none ↔ xs = [] := by
  cases xs with
  | nil => simp [firstGreatest]
  | cons x xs =>
    rw [firstGreatest]
    split
    · simp
    · split <;> simp

/-- The first element with the greatest score is greater than those before it
and as great as those behind it. -/
theorem exists_split_of_firstGreatest (h : firstGreatest score xs = some y) :
    ∃ before after, xs = before ++ y :: after ∧ (∀ x ∈ before, score x < score y) ∧
      ∀ x ∈ after, score x ≤ score y := by
  induction xs generalizing y with
  | nil => cases h
  | cons x xs ih =>
    rw [firstGreatest] at h
    split at h
    · next hnone =>
      obtain rfl := Option.some.inj h
      obtain rfl := firstGreatest_eq_none_iff.1 hnone
      exact ⟨[], [], rfl, by simp, by simp⟩
    · next z hz =>
      obtain ⟨before, after, rfl, hbefore, hafter⟩ := ih hz
      split at h
      · next hlt =>
        obtain rfl := Option.some.inj h
        exact ⟨x :: before, after, rfl, List.forall_mem_cons.2 ⟨hlt, hbefore⟩, hafter⟩
      · next hnot =>
        obtain rfl := Option.some.inj h
        -- the head keeps its place: the greatest of the others is no greater
        have hz : score z ≤ score x := Nat.le_of_not_lt hnot
        refine ⟨[], before ++ z :: after, rfl, by simp, ?_⟩
        intro w hw
        rcases List.mem_append.1 hw with hw | hw
        · have hlt := hbefore w hw
          omega
        · rcases List.mem_cons.1 hw with rfl | hw
          · exact hz
          · have hle := hafter w hw
            omega

end FirstGreatest

/-! ## Components of namespaces -/

/-- The components of a namespace, letter case aside. -/
def components (ns : String) : List String :=
  Text.pieces '.' (Text.lower ns)

/-- That a schema lies in a namespace, letter case aside. -/
def LiesIn (near id : String) : Prop :=
  sameLetters (leadingComponents id) near = true

/-- That the namespace of a schema and another namespace have the same `k`
leading components. -/
def Shares (near id : String) (k : Nat) : Prop :=
  ∃ common, common.length = k ∧ common <+: components (leadingComponents id) ∧
    common <+: components near

/-- The shared components are the longest common beginning. -/
theorem le_sharedComponents_iff {as bs : List String} {k : Nat} :
    k ≤ sharedComponents as bs ↔
      ∃ common, common.length = k ∧ common <+: as ∧ common <+: bs := by
  have hzero : ∀ {as bs : List String}, ∃ common, common.length = 0 ∧ common <+: as ∧
      common <+: bs := ⟨[], rfl, List.nil_prefix, List.nil_prefix⟩
  induction as generalizing bs k with
  | nil =>
    have hnone : sharedComponents [] bs = 0 := by simp [sharedComponents]
    rw [hnone, Nat.le_zero]
    constructor
    · rintro rfl
      exact hzero
    · rintro ⟨common, rfl, hnil, -⟩
      rw [List.prefix_nil.1 hnil, List.length_nil]
  | cons a as ih =>
    cases bs with
    | nil =>
      have hnone : sharedComponents (a :: as) [] = 0 := by simp [sharedComponents]
      rw [hnone, Nat.le_zero]
      constructor
      · rintro rfl
        exact hzero
      · rintro ⟨common, rfl, -, hnil⟩
        rw [List.prefix_nil.1 hnil, List.length_nil]
    | cons b bs =>
      rw [sharedComponents]
      cases k with
      | zero => exact ⟨fun _ => hzero, fun _ => Nat.zero_le _⟩
      -- one component more is shared exactly when the first ones agree
      | succ k =>
        constructor
        · intro h
          split at h
          · next heq =>
            obtain ⟨common, hlength, has, hbs⟩ := ih.1 (Nat.le_of_succ_le_succ h)
            refine ⟨a :: common, by simp [hlength], ?_, ?_⟩
            · exact List.cons_prefix_cons.2 ⟨rfl, has⟩
            · exact List.cons_prefix_cons.2 ⟨heq, hbs⟩
          · omega
        · rintro ⟨common, hlength, has, hbs⟩
          obtain ⟨d, common, rfl⟩ := List.exists_cons_of_length_eq_add_one hlength
          obtain ⟨rfl, has'⟩ := List.cons_prefix_cons.1 has
          obtain ⟨rfl, hbs'⟩ := List.cons_prefix_cons.1 hbs
          rw [if_pos rfl]
          have hk : common.length = k := by simpa using hlength
          exact Nat.succ_le_succ (ih.2 ⟨common, hk, has', hbs'⟩)

theorem shares_iff {k : Nat} : Shares near id k ↔ k ≤ nearness near id :=
  le_sharedComponents_iff.symm

/-! ## The nearest candidate -/

/-- That a schema has the last component of a name, letter case aside. -/
def EndsLike (ids : List String) (name id : String) : Prop :=
  id ∈ ids ∧ sameLetters (lastComponent id) (lastComponent name) = true

/-- **The schema that is taken among several.** Near no namespace it is the
least. Near a namespace it lies in it if one of them does, and shares as many
leading components with it as any of them if none does; among equals it is the
least. -/
inductive IsNearest (among : String → Prop) : Option String → String → Prop
  | least {id : String} : among id → (∀ other, among other → id ≤ other) →
      IsNearest among none id
  | inside {near id : String} : among id → LiesIn near id →
      (∀ other, among other → LiesIn near other → id ≤ other) → IsNearest among (some near) id
  | closest {near id : String} : among id → (∀ other, among other → ¬ LiesIn near other) →
      (∀ other k, among other → Shares near other k → Shares near id k) →
      (∀ other, among other → (∀ k, Shares near id k → Shares near other k) → id ≤ other) →
      IsNearest among (some near) id

/-- In an ascending list an element is followed by greater ones only. -/
theorem le_of_ascending {before after : List String}
    (hascending : (before ++ id :: after).Pairwise (· ≤ ·))
    (hother : other ∈ before ++ id :: after) (hbefore : other ∉ before) : id ≤ other := by
  have hafter := (List.pairwise_append.1 hascending).2.1
  rcases List.mem_append.1 hother with hmem | hmem
  · exact absurd hmem hbefore
  · rcases List.mem_cons.1 hmem with rfl | hmem
    · exact String.le_refl _
    · exact List.rel_of_pairwise_cons hafter hmem

theorem nearest_eq_none_iff : nearest near ids = none ↔ ids = [] := by
  unfold nearest
  constructor
  · intro h
    split at h
    · cases h
    · exact firstGreatest_eq_none_iff.1 h
  · rintro rfl
    rfl

/-- The nearest of ascending names. -/
theorem isNearest_of_nearest (hascending : ids.Pairwise (· ≤ ·))
    (h : nearest near ids = some id) : IsNearest (· ∈ ids) (some near) id := by
  unfold nearest at h
  split at h
  · next found hfound =>
    obtain rfl := Option.some.inj h
    obtain ⟨hinside, before, after, rfl, hbefore⟩ := List.find?_eq_some_iff_append.1 hfound
    refine .inside (by simp) hinside ?_
    intro other hother hlies
    refine le_of_ascending hascending hother fun hmem => ?_
    have houtside := hbefore other hmem
    rw [show sameLetters (leadingComponents other) near = true from hlies] at houtside
    cases houtside
  · next hnone =>
    have houtside := List.find?_eq_none.1 hnone
    obtain ⟨before, after, rfl, hbefore, hafter⟩ := exists_split_of_firstGreatest h
    have hgreatest : ∀ other ∈ before ++ id :: after, nearness near other ≤ nearness near id := by
      intro other hother
      rcases List.mem_append.1 hother with hmem | hmem
      · exact Nat.le_of_lt (hbefore other hmem)
      · rcases List.mem_cons.1 hmem with rfl | hmem
        · exact Nat.le_refl _
        · exact hafter other hmem
    refine .closest (by simp) houtside ?_ ?_
    · intro other k hother hshares
      exact shares_iff.2 (Nat.le_trans (shares_iff.1 hshares) (hgreatest other hother))
    · intro other hother has
      have hle : nearness near id ≤ nearness near other :=
        shares_iff.1 (has _ (shares_iff.2 (Nat.le_refl _)))
      -- what comes before the first greatest is less near
      refine le_of_ascending hascending hother fun hmem => ?_
      have hlt := hbefore other hmem
      omega

theorem isNearest_of_findShort? {c : Catalog} {near : Option String}
    (h : c.findShort? name near = some id) :
    IsNearest (EndsLike c.ids name) (near.filter (· ≠ "")) id := by
  have hmem : (· ∈ candidates c.ids name) = EndsLike c.ids name := by
    funext other
    exact propext mem_candidates
  unfold findShort? at h
  split at h
  · next hnear =>
    rw [hnear, ← hmem]
    exact isNearest_of_nearest pairwise_candidates h
  · next hnear =>
    rw [hnear]
    obtain ⟨hends, hleast⟩ := head?_candidates.1 h
    exact .least hends fun other hother => hleast other hother.1 hother.2

theorem findShort?_eq_none_iff {c : Catalog} {near : Option String} :
    c.findShort? name near = none ↔ ∀ id, ¬ EndsLike c.ids name id := by
  have hempty : c.findShort? name near = none ↔ candidates c.ids name = [] := by
    unfold findShort?
    split
    · exact nearest_eq_none_iff
    · exact List.head?_eq_none_iff
  rw [hempty, List.eq_nil_iff_forall_not_mem]
  exact forall_congr' fun id => not_congr mem_candidates

/-! ## The order of the schemas -/

/-- There is one ascending order of the candidates. -/
theorem candidates_eq {found : List String}
    (hperm : found.Perm (ids.filter fun id => sameLetters (lastComponent id) (lastComponent name)))
    (hascending : found.Pairwise (· ≤ ·)) : candidates ids name = found := by
  have hsame : (candidates ids name).Perm found := (List.mergeSort_perm _ _).trans hperm.symm
  refine List.Perm.eq_of_pairwise ?_ pairwise_candidates hascending hsame
  intro a b _ _ hab hba
  exact String.le_antisymm hab hba

theorem candidates_perm (h : ids.Perm ids') : candidates ids name = candidates ids' name :=
  candidates_eq ((List.mergeSort_perm _ _).trans (h.symm.filter _)) pairwise_candidates

theorem findShort?_perm {c c' : Catalog} {near : Option String} (h : c.ids.Perm c'.ids) :
    c.findShort? name near = c'.findShort? name near := by
  rw [findShort?, findShort?, candidates_perm h]

/-! ## Looking a name up in a table -/

/-- The catalog of a document whose schemas are a table with names that are
texts. -/
def ofTable (document : Doc) (schemas : List (String × Doc)) : Catalog :=
  { document, schemas }

section Table

variable {document : Doc} {schemas : List (String × Doc)}

/-- A mapping of schemas under names that are texts is read as such a table. -/
theorem catalogOf_texts (document : Doc) (schemas : List (String × Doc)) :
    Index.catalogOf document none (schemas.map fun e => (.text e.1, e.2)) =
      .ok (ofTable document schemas) := by
  have hnames : (schemas.map fun e => ((.text e.1, e.2) : Scalar × Doc)).all
      (fun e => Index.isSchemaName e.1) = true := by
    simp [Index.isSchemaName]
  have hoctets : (schemas.map fun e => ((.text e.1, e.2) : Scalar × Doc)).any
      (fun e => Index.isOctetName e.1) = false := by
    simp [Index.isOctetName]
  rw [Index.catalogOf, if_pos hnames, hoctets]
  simp [ofTable, List.filterMap_map]

theorem find?_ofTable_of_mem (h : name ∈ schemas.map Prod.fst) (near : Option String) :
    (ofTable document schemas).find? name near = .ok (some name) := by
  have hcontains : (ofTable document schemas).contains name = true := by
    simpa [contains, ofTable, ids] using h
  rw [find?, if_pos hcontains]

/-- A name that no schema has is looked up by its last component. -/
theorem find?_ofTable_of_unlike
    (h : ∀ id ∈ schemas.map Prod.fst, sameLetters id name = false) (near : Option String) :
    (ofTable document schemas).find? name near =
      .ok ((ofTable document schemas).findShort? name near) := by
  have hcontains : ¬ (ofTable document schemas).contains name = true := by
    intro hmem
    have hmem : name ∈ schemas.map Prod.fst := by
      simpa [contains, ofTable, ids] using hmem
    have hunlike := h name hmem
    simp [sameLetters] at hunlike
  have hnone : ((ofTable document schemas).ids.reverse.find? fun id => sameLetters id name) =
      none := find?_reverse_eq_none.2 h
  rw [find?, if_neg hcontains, hnone]
  exact if_neg Bool.false_ne_true

end Table

/-- **A name is looked up by its last component.** In every table of schemas
with names that are texts, the name of a schema leads to this schema, whatever
is near. A name that no schema has, not even in another letter case, leads to
none exactly when no schema has its last component, and else to the nearest of
those that have it, where an empty namespace is near nothing. For such a name
the order of the table does not count, nor does the rest of the document. -/
theorem find?_by_component (document : Doc) (schemas : List (String × Doc)) (name : String) :
    (name ∈ schemas.map Prod.fst → ∀ near,
      (ofTable document schemas).find? name near = .ok (some name)) ∧
    ((∀ id ∈ schemas.map Prod.fst, sameLetters id name = false) → ∀ near,
      ∃ found, (ofTable document schemas).find? name near = .ok found ∧
        (found = none ↔ ∀ id, ¬ EndsLike (schemas.map Prod.fst) name id) ∧
        (∀ id, found = some id →
          IsNearest (EndsLike (schemas.map Prod.fst) name) (near.filter (· ≠ "")) id) ∧
        ∀ document' schemas', schemas'.Perm schemas →
          (ofTable document' schemas').find? name near = .ok found) := by
  refine ⟨find?_ofTable_of_mem, fun hunlike near => ?_⟩
  refine ⟨_, find?_ofTable_of_unlike hunlike near, findShort?_eq_none_iff, ?_, ?_⟩
  · intro id hid
    exact isNearest_of_findShort? hid
  · intro document' schemas' hperm
    have hids : (schemas'.map Prod.fst).Perm (schemas.map Prod.fst) := hperm.map _
    rw [find?_ofTable_of_unlike (fun id hid => hunlike id (hids.mem_iff.1 hid)) near]
    exact congrArg Except.ok (findShort?_perm hids)

/-- Two schemas with one short name, and a schema with another one. -/
def partTable : List (String × Doc) :=
  [("a.part", .map []), ("b.part", .map []), ("b.item", .map [])]

/-- Near `b.d` the greater one is taken, for its first component, whatever the
order. -/
theorem find?_by_component_part :
    (∀ id ∈ partTable.map Prod.fst, sameLetters id "Part" = false) ∧
      ∃ found, (ofTable .null partTable).find? "Part" (some "b.d") = .ok found ∧
        found = some "b.part" ∧
        IsNearest (EndsLike (partTable.map Prod.fst) "Part") (some "b.d") "b.part" ∧
        (ofTable .null partTable.reverse).find? "Part" (some "b.d") = .ok found := by
  have hunlike : ∀ id ∈ partTable.map Prod.fst, sameLetters id "Part" = false := by decide
  have hcandidates : candidates (partTable.map Prod.fst) "Part" = ["a.part", "b.part"] :=
    candidates_eq (.of_eq (by decide +kernel)) (by decide)
  have hnearest : nearest "b.d" ["a.part", "b.part"] = some "b.part" := by decide
  have hfound : (ofTable .null partTable).find? "Part" (some "b.d") = .ok (some "b.part") := by
    rw [find?_ofTable_of_unlike hunlike]
    show Except.ok (nearest "b.d" (candidates (partTable.map Prod.fst) "Part")) = _
    rw [hcandidates, hnearest]
  obtain ⟨found, hfind, -, hchosen, hperm⟩ :=
    (find?_by_component .null partTable "Part").2 hunlike (some "b.d")
  obtain rfl := Except.ok.inj (hfind.symm.trans hfound)
  exact ⟨hunlike, _, hfind, rfl, hchosen _ rfl, hperm .null _ (List.reverse_perm _)⟩

/-! ## Octets and the empty namespace -/

/-- A document with one schema, whose name is spelled in octets. -/
def octetPart : Doc :=
  .map [(.text "components", .map [(.text "schemas", .map
    [(.octets [97, 46, 112, 97, 114, 116], .map [])])])]

/-- Two schemas with one short name, one of them without a namespace. -/
def undottedTable : List (String × Doc) :=
  [("a.part", .map []), ("part", .map [])]

/-- A name that no schema ends like is refused beside a schema whose name is
spelled in octets, and the empty namespace does not lead to the schema that
lies in it. -/
theorem find?_beside_octets :
    (∃ c, Index.catalogIn octetPart = .ok c ∧ (∀ id, ¬ EndsLike c.ids "x" id) ∧
      c.find? "x" none = .error (.defect .type)) ∧
    EndsLike (undottedTable.map Prod.fst) "x.part" "part" ∧ LiesIn "" "part" ∧
      (∀ id ∈ undottedTable.map Prod.fst, sameLetters id "x.part" = false) ∧
      (ofTable .null undottedTable).find? "x.part" (some "") = .ok (some "a.part") := by
  have hids : ∀ id, ¬ EndsLike [] "x" id := by
    rintro id ⟨hid, -⟩
    cases hid
  have hunlike : ∀ id ∈ undottedTable.map Prod.fst, sameLetters id "x.part" = false := by decide
  have hcandidates : candidates (undottedTable.map Prod.fst) "x.part" = ["a.part", "part"] :=
    candidates_eq (.of_eq (by decide +kernel)) (by decide)
  have hfound : (ofTable .null undottedTable).find? "x.part" (some "") = .ok (some "a.part") := by
    rw [find?_ofTable_of_unlike hunlike]
    show Except.ok (candidates (undottedTable.map Prod.fst) "x.part").head? = _
    rw [hcandidates, List.head?_cons]
  have hends : EndsLike (undottedTable.map Prod.fst) "x.part" "part" := ⟨by decide, rfl⟩
  have hlies : LiesIn "" "part" := rfl
  exact ⟨⟨_, rfl, hids, rfl⟩, hends, hlies, hunlike, hfound⟩

end Catalog

end ApiSnippets
