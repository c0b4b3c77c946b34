import Mathlib.Data.List.Nodup
import ApiSnippets.Proofs.Entries
import ApiSnippets.Proofs.Request.Path
import ApiSnippets.Schema.Tree
/-!
# The tree as a prefix tree

Adding operations at the end of some segments changes nothing else: the
segments and their prefixes are found afterwards, besides what was found
before (`isSome_find?_insert`), and only the operations of the last node are
others (`operationsAt_insert`). Siblings stay distinct and a node's path stays
the one its place gives it (`wellPlaced_insert`), so each node of the tree is
the one that is found at its place (`find?_of_mem_walk`).
-/

namespace ApiSnippets

namespace PathNode

variable {n m : PathNode} {s t : String} {q segs : List String} {ops : List (Method × Operation)}

/-! ## One node -/

@[simp] theorem insert_segment : (insert segs ops n).segment = n.segment := by
  cases segs <;> rfl

@[simp] theorem insert_path : (insert segs ops n).path = n.path := by
  cases segs <;> rfl

@[simp] theorem find?_nil : find? [] n = some n := rfl

theorem find?_cons : find? (s :: q) n = (n.child? s).bind (find? q) := rfl

theorem find?_append {q' : List String} : find? (q ++ q') n = (n.find? q).bind (find? q') := by
  induction q generalizing n with
  | nil => rfl
  | cons t q ih =>
    rw [List.cons_append, find?_cons, find?_cons, Option.bind_assoc]
    congr 1
    funext c
    exact ih

theorem isSome_find?_leaf (h : n.children = []) : (n.find? q).isSome ↔ q = [] := by
  cases q with
  | nil => simp
  | cons t q => simp [find?_cons, child?, h]

/-- A changed child is found under its segment, a new one when there was
none. -/
theorem find?_change_self {path : String} {f : PathNode → PathNode} {ns : List PathNode}
    (hf : ∀ c, (f c).segment = c.segment) :
    ((change path s f ns).find? fun c => c.segment == s) =
      some (f ((ns.find? fun c => c.segment == s).getD (fresh path s))) := by
  induction ns with
  | nil => simp [change, hf, fresh]
  | cons c ns ih =>
    rw [change]
    by_cases hc : c.segment = s
    · simp [hc, hf]
    · simp [hc, ih]

theorem find?_change_of_ne {path : String} {f : PathNode → PathNode} {ns : List PathNode}
    (hf : ∀ c, (f c).segment = c.segment) (ht : t ≠ s) :
    ((change path s f ns).find? fun c => c.segment == t) =
      ns.find? fun c => c.segment == t := by
  induction ns with
  | nil => simp [change, hf, fresh, ht.symm]
  | cons c ns ih =>
    rw [change]
    by_cases hc : c.segment = s
    · simp [hc, hf, ht.symm]
    · simp [hc, List.find?_cons, ih]

theorem child?_insert_self :
    (insert (s :: segs) ops n).child? s =
      some (insert segs ops ((n.child? s).getD (fresh n.path s))) :=
  find?_change_self fun _ => insert_segment

theorem child?_insert_of_ne (ht : t ≠ s) : (insert (s :: segs) ops n).child? t = n.child? t :=
  find?_change_of_ne (fun _ => insert_segment) ht

theorem child?_insert_nil : (insert [] ops n).child? t = n.child? t := rfl

/-! ## What is found -/

/-- **Adding at the end of some segments** makes them and their prefixes
found, and nothing else. -/
theorem isSome_find?_insert :
    ((insert segs ops n).find? q).isSome ↔ (n.find? q).isSome ∨ q <+: segs := by
  induction segs generalizing n q with
  | nil =>
    cases q with
    | nil => simp
    | cons t q => simp [find?_cons, child?_insert_nil]
  | cons s segs ih =>
    cases q with
    | nil => simp
    | cons t q =>
      rw [find?_cons, find?_cons]
      by_cases ht : t = s
      · subst ht
        rw [child?_insert_self, Option.bind_some, ih, List.cons_prefix_cons]
        cases hc : n.child? t with
        | none =>
          -- the new node leads nowhere yet
          rw [Option.getD_none, isSome_find?_leaf rfl]
          simp only [Option.bind_none, Option.isSome_none, Bool.false_eq_true, false_or, true_and]
          refine or_iff_right_of_imp ?_
          rintro rfl
          exact List.nil_prefix
        | some c => simp
      · rw [child?_insert_of_ne ht, List.cons_prefix_cons]
        simp [ht]

/-- The operations at the end of some segments. -/
def operationsAt (q : List String) (n : PathNode) : List (Method × Operation) :=
  ((n.find? q).map (·.operations)).getD []

theorem operationsAt_of_find? (h : n.find? q = some m) : operationsAt q n = m.operations := by
  simp [operationsAt, h]

theorem operationsAt_leaf (h : n.children = []) (hops : n.operations = []) :
    operationsAt q n = [] := by
  cases q with
  | nil => exact hops
  | cons t q => simp [operationsAt, find?_cons, child?, h]

theorem operationsAt_cons :
    operationsAt (s :: q) n = ((n.child? s).map (operationsAt q)).getD [] := by
  rw [operationsAt, find?_cons]
  cases n.child? s <;> rfl

/-- **Only the last node takes the operations.** -/
theorem operationsAt_insert :
    operationsAt q (insert segs ops n) =
      if q = segs then Entries.putAll (operationsAt q n) ops else operationsAt q n := by
  induction segs generalizing n q with
  | nil =>
    cases q with
    | nil => rfl
    | cons t q => simp [operationsAt_cons, child?_insert_nil]
  | cons s segs ih =>
    cases q with
    | nil => rfl
    | cons t q =>
      rw [operationsAt_cons, operationsAt_cons]
      by_cases ht : t = s
      · subst ht
        rw [child?_insert_self, Option.map_some, Option.getD_some, ih]
        simp only [List.cons.injEq, true_and]
        cases n.child? t with
        | none => simp [operationsAt_leaf (n := fresh n.path t) rfl rfl]
        | some c => simp
      · rw [child?_insert_of_ne ht]
        simp [ht]

/-! ## Places -/

/-- That siblings are distinct, and that each node's path is one segment below
its parent's. -/
inductive WellPlaced : PathNode → Prop
  | mk {n : PathNode} : (n.children.map (·.segment)).Nodup →
      (∀ c ∈ n.children, c.path = Path.below n.path c.segment) →
      (∀ c ∈ n.children, WellPlaced c) → WellPlaced n

theorem wellPlaced_of_children_nil (h : n.children = []) : WellPlaced n := by
  refine .mk ?_ ?_ ?_ <;> simp [h]

/-- What is among changed nodes: the nodes from before, or a changed one that
was among them or is new. -/
theorem mem_change {path : String} {f : PathNode → PathNode} {ns : List PathNode}
    (h : m ∈ change path s f ns) :
    m ∈ ns ∨ ∃ c, (c ∈ ns ∨ c = fresh path s) ∧ m = f c := by
  induction ns with
  | nil => exact .inr ⟨_, .inr rfl, List.mem_singleton.1 h⟩
  | cons c ns ih =>
    rw [change] at h
    by_cases hc : c.segment = s
    · rw [if_pos hc] at h
      rcases List.mem_cons.1 h with rfl | h
      · exact .inr ⟨c, .inl List.mem_cons_self, rfl⟩
      · exact .inl (List.mem_cons_of_mem _ h)
    · rw [if_neg hc] at h
      rcases List.mem_cons.1 h with rfl | h
      · exact .inl List.mem_cons_self
      · rcases ih h with h | ⟨c', hc', rfl⟩
        · exact .inl (List.mem_cons_of_mem _ h)
        · exact .inr ⟨c', hc'.imp_left (List.mem_cons_of_mem _), rfl⟩

theorem map_segment_change {path : String} {f : PathNode → PathNode} {ns : List PathNode}
    (hf : ∀ c, (f c).segment = c.segment) :
    (change path s f ns).map (·.segment) =
      if s ∈ ns.map (·.segment) then ns.map (·.segment) else ns.map (·.segment) ++ [s] := by
  induction ns with
  | nil => simp [change, hf, fresh]
  | cons c ns ih =>
    rw [change]
    by_cases hc : c.segment = s
    · simp [hc, hf]
    · have hs : s ∈ (c :: ns).map (·.segment) ↔ s ∈ ns.map (·.segment) := by
        simp [Ne.symm hc]
      rw [if_neg hc, List.map_cons, ih]
      simp only [hs]
      split <;> simp

theorem wellPlaced_insert (h : WellPlaced n) : WellPlaced (insert segs ops n) := by
  induction segs generalizing n with
  | nil =>
    obtain ⟨hnodup, hpath, hchildren⟩ := h
    exact .mk hnodup hpath hchildren
  | cons s segs ih =>
    obtain ⟨hnodup, hpath, hchildren⟩ := h
    refine .mk ?_ ?_ ?_
    · -- a changed child keeps its segment, so a new segment is the only addition
      show ((change n.path s (insert segs ops) n.children).map (·.segment)).Nodup
      rw [map_segment_change fun _ => insert_segment]
      split
      · exact hnodup
      · next hs => simpa using hnodup.concat hs
    · intro c hc
      rcases mem_change hc with hold | ⟨c, hold | rfl, rfl⟩
      · exact hpath c hold
      · rw [insert_path, insert_segment]
        exact hpath c hold
      · rw [insert_path, insert_segment]
        rfl
    · intro c hc
      rcases mem_change hc with hold | ⟨c, hold | rfl, rfl⟩
      · exact hchildren c hold
      · exact ih (hchildren c hold)
      · exact ih (wellPlaced_of_children_nil rfl)

theorem WellPlaced.child? (h : WellPlaced n) (hc : n.child? s = some m) :
    WellPlaced m ∧ m.segment = s ∧ m.path = Path.below n.path s := by
  obtain ⟨-, hpath, hchildren⟩ := h
  have hmem : m ∈ n.children := List.mem_of_find?_eq_some hc
  obtain rfl : m.segment = s := by simpa using List.find?_some hc
  exact ⟨hchildren m hmem, rfl, hpath m hmem⟩

/-- The path of a node is made of the segments that lead to it. -/
theorem WellPlaced.find? (h : WellPlaced n) (hm : n.find? q = some m) :
    WellPlaced m ∧ m.path = q.foldl Path.below n.path := by
  induction q generalizing n with
  | nil =>
    obtain rfl := Option.some.inj hm
    exact ⟨h, rfl⟩
  | cons s q ih =>
    obtain ⟨c, hc, hm⟩ := Option.bind_eq_some_iff.1 hm
    obtain ⟨hplaced, -, hpath⟩ := h.child? hc
    rw [List.foldl_cons, ← hpath]
    exact ih hplaced hm

/-- Distinct siblings are each found under their own segment. -/
theorem WellPlaced.child?_of_mem (h : WellPlaced n) (hm : m ∈ n.children) :
    n.child? m.segment = some m := by
  obtain ⟨hnodup, -, -⟩ := h
  unfold PathNode.child?
  revert hnodup hm
  generalize n.children = ns
  intro hm hnodup
  induction ns with
  | nil => simp at hm
  | cons c ns ih =>
    rw [List.map_cons, List.nodup_cons] at hnodup
    rcases List.mem_cons.1 hm with rfl | hm
    · simp
    · have hne : c.segment ≠ m.segment := fun heq =>
        hnodup.1 (heq ▸ List.mem_map_of_mem hm)
      rw [List.find?_cons_of_neg (by simpa using hne)]
      exact ih hm hnodup.2

theorem walk_eq (n : PathNode) : walk n = n :: walkAll n.children := by
  cases n
  rfl

theorem mem_walk_self (n : PathNode) : n ∈ walk n := by
  rw [walk_eq]
  exact List.mem_cons_self

theorem exists_mem_walk_of_mem_walkAll {ns : List PathNode} (h : m ∈ walkAll ns) :
    ∃ c ∈ ns, m ∈ walk c := by
  induction ns with
  | nil => simp [walkAll] at h
  | cons c ns ih =>
    rw [walkAll] at h
    rcases List.mem_append.1 h with h | h
    · exact ⟨c, List.mem_cons_self, h⟩
    · obtain ⟨c', hc', h⟩ := ih h
      exact ⟨c', List.mem_cons_of_mem _ hc', h⟩

/-- What is below a child is below its parent. -/
theorem mem_walk_of_mem_children {c : PathNode} (hc : c ∈ n.children) (hm : m ∈ walk c) :
    m ∈ walk n := by
  rw [walk_eq]
  refine List.mem_cons_of_mem _ ?_
  generalize n.children = children at hc
  induction children with
  | nil => simp at hc
  | cons d ns ih =>
    rw [walkAll]
    rcases List.mem_cons.1 hc with rfl | hc
    · exact List.mem_append_left _ hm
    · exact List.mem_append_right _ (ih hc)

mutual

/-- **Each node of the tree is the one that is found at its place.** -/
theorem find?_of_mem_walk : ∀ n : PathNode, WellPlaced n → m ∈ walk n → ∃ q, find? q n = some m
  | ⟨segment, path, operations, children⟩, h, hm => by
    rw [walk] at hm
    rcases List.mem_cons.1 hm with rfl | hm
    · exact ⟨[], rfl⟩
    · have hplaced := h
      obtain ⟨-, -, hchildren⟩ := h
      obtain ⟨c, hc, q, hq⟩ := find?_of_mem_walkAll children hchildren hm
      refine ⟨c.segment :: q, ?_⟩
      rw [find?_cons, hplaced.child?_of_mem hc]
      exact hq

theorem find?_of_mem_walkAll : ∀ ns : List PathNode, (∀ c ∈ ns, WellPlaced c) → m ∈ walkAll ns →
    ∃ c ∈ ns, ∃ q, find? q c = some m
  | [], _, hm => by simp [walkAll] at hm
  | n :: ns, h, hm => by
    rw [walkAll] at hm
    rcases List.mem_append.1 hm with hm | hm
    · obtain ⟨q, hq⟩ := find?_of_mem_walk n (h n List.mem_cons_self) hm
      exact ⟨n, List.mem_cons_self, q, hq⟩
    · obtain ⟨c, hc, q, hq⟩ :=
        find?_of_mem_walkAll ns (fun c hc => h c (List.mem_cons_of_mem _ hc)) hm
      exact ⟨c, List.mem_cons_of_mem _ hc, q, hq⟩

end

/-! ## Paths -/

/-- That a node is at a place, and that every place below it is made of
canonical segments. -/
structure PlacedAt (q : List String) (n : PathNode) : Prop where
  wellPlaced : WellPlaced n
  path : n.path = Path.ofSegments q
  canonical : ∀ q', (n.find? q').isSome → Path.CanonicalTexts (q ++ q')

theorem PlacedAt.find? {q' : List String} (h : PlacedAt q n) (hm : n.find? q' = some m) :
    PlacedAt (q ++ q') m := by
  obtain ⟨hplaced, hpath⟩ := h.wellPlaced.find? hm
  have hcanonical : Path.CanonicalTexts (q ++ q') := h.canonical q' (by simp [hm])
  refine ⟨hplaced, ?_, ?_⟩
  · rw [hpath, h.path, Path.foldl_below fun _ => hcanonical.ne_empty]
  · intro q'' hq''
    rw [List.append_assoc]
    refine h.canonical (q' ++ q'') ?_
    rwa [find?_append, hm]

/-- The segments of a node's path are those that lead to it. -/
theorem PlacedAt.segments_path (h : PlacedAt q n) : Path.segments n.path = q := by
  have hcanonical : Path.CanonicalTexts q := by
    simpa using h.canonical [] rfl
  rw [h.path, Path.segments_ofSegments hcanonical]

theorem PlacedAt.of_mem_children (h : PlacedAt q n) (hm : m ∈ n.children) :
    PlacedAt (q ++ [m.segment]) m := by
  have hfind : n.find? [m.segment] = some m := by
    rw [find?_cons, h.wellPlaced.child?_of_mem hm]
    rfl
  exact h.find? hfind

/-- **A node is found by the segments of its own path.** -/
theorem PlacedAt.find?_segments_path (h : PlacedAt [] n) (hm : m ∈ walk n) :
    n.find? (Path.segments m.path) = some m := by
  obtain ⟨q, hq⟩ := find?_of_mem_walk n h.wellPlaced hm
  rw [(h.find? hq).segments_path]
  exact hq

theorem PlacedAt.prefix_segments_path (h : PlacedAt q n) (hm : m ∈ walk n) :
    q <+: Path.segments m.path := by
  obtain ⟨q', hq'⟩ := find?_of_mem_walk n h.wellPlaced hm
  rw [(h.find? hq').segments_path]
  exact List.prefix_append q q'

mutual

/-- **No two nodes of the tree have the same path.** -/
theorem nodup_path_walk : ∀ (n : PathNode) (q : List String), PlacedAt q n →
    ((walk n).map (·.path)).Nodup
  | ⟨segment, path, operations, children⟩, q, h => by
    have hchildren : ∀ c ∈ children, PlacedAt (q ++ [c.segment]) c :=
      fun c hc => h.of_mem_children hc
    obtain ⟨hnodup, -, -⟩ := h.wellPlaced
    rw [walk, List.map_cons, List.nodup_cons]
    refine ⟨?_, nodup_path_walkAll children q hnodup hchildren⟩
    -- a node below has a segment more than the node itself
    intro hmem
    obtain ⟨m, hm, hpath⟩ := List.mem_map.1 hmem
    obtain ⟨c, hc, hm⟩ := exists_mem_walk_of_mem_walkAll hm
    have hlonger := ((hchildren c hc).prefix_segments_path hm).length_le
    have hsame : Path.segments m.path = q := by
      rw [hpath]
      exact h.segments_path
    rw [hsame, List.length_append, List.length_singleton] at hlonger
    omega

theorem nodup_path_walkAll : ∀ (ns : List PathNode) (q : List String),
    (ns.map (·.segment)).Nodup → (∀ c ∈ ns, PlacedAt (q ++ [c.segment]) c) →
    ((walkAll ns).map (·.path)).Nodup
  | [], _, _, _ => by simp [walkAll]
  | n :: ns, q, hnodup, h => by
    rw [List.map_cons, List.nodup_cons] at hnodup
    rw [walkAll, List.map_append, List.nodup_append]
    refine ⟨nodup_path_walk n _ (h n List.mem_cons_self), ?_, ?_⟩
    · exact nodup_path_walkAll ns q hnodup.2 fun c hc => h c (List.mem_cons_of_mem _ hc)
    · -- nodes below distinct siblings differ in the siblings' segments
      intro a ha b hb hab
      obtain ⟨m, hm, rfl⟩ := List.mem_map.1 ha
      obtain ⟨m', hm', rfl⟩ := List.mem_map.1 hb
      obtain ⟨c, hc, hm'⟩ := exists_mem_walk_of_mem_walkAll hm'
      have hleft := (h n List.mem_cons_self).prefix_segments_path hm
      have hright := (h c (List.mem_cons_of_mem _ hc)).prefix_segments_path hm'
      rw [← hab] at hright
      have hsame := List.prefix_of_prefix_length_le hleft hright (by simp)
      have hsegment : n.segment = c.segment := by
        simpa using List.IsPrefix.eq_of_length hsame (by simp)
      exact hnodup.1 (hsegment ▸ List.mem_map_of_mem hc)

end

end PathNode

end ApiSnippets
