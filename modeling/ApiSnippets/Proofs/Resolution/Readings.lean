import ApiSnippets.Proofs.Resolution.Casts
import ApiSnippets.Proofs.Resolution.Letters
/-!
# How paths are read

Every segment of a path leaves a trace in the place that the walk along it ends
at. It is read as a segment of its own below the node, or as a cast of the
segment before it, to a type that has a node or to one that has none
(`Place.reading`). So the depth of the node and the number of segments are
counted by how the segments are read (`walk_accounts_for_segments`). The order
of what stands in the place is kept by every step: a key is behind the literal
that it belongs to, and no other placeholder is behind a literal.
-/

namespace ApiSnippets

/-! ## Depth -/

namespace PathNode

variable {n m c : PathNode} {depth : Nat} {q : List String}

/-- That a node is so many levels below another one. -/
inductive AtDepth : Nat → PathNode → PathNode → Prop
  | here (n : PathNode) : AtDepth 0 n n
  | down {depth : Nat} {n c m : PathNode} : c ∈ n.children → AtDepth depth c m →
      AtDepth (depth + 1) n m

theorem AtDepth.trans {depth' : Nat} (h : AtDepth depth n c) (h' : AtDepth depth' c m) :
    AtDepth (depth + depth') n m := by
  induction h with
  | here n => simpa using h'
  | down hc _ ih =>
    have hdown := AtDepth.down hc (ih h')
    rwa [Nat.add_right_comm] at hdown

/-- In a tree of templates the path of a node has a segment for each level. -/
theorem AtDepth.length_segments_path (h : AtDepth depth n m) (hplaced : PlacedAt q n) :
    (Path.segments m.path).length = q.length + depth := by
  induction h generalizing q with
  | here n =>
    have hpath := hplaced.segments_path
    rw [hpath]
    omega
  | down hc _ ih =>
    have hchild := hplaced.of_mem_children hc
    have hlength := ih hchild
    rw [List.length_append, List.length_singleton] at hlength
    omega

/-- Whether a node stands for a cast: a dotted name without arguments that is
neither an action nor a function. -/
def isCast (n : PathNode) : Bool :=
  Text.hasChar '.' n.segment && !n.isParameter && !n.hasArguments &&
    n.operationType == .operation

end PathNode

/-! ## What segments follow -/

namespace SegmentRole

variable {role : SegmentRole} {roles : List SegmentRole}

/-- That a segment may follow another one: a key only the literal of its
collection, a placeholder that is no key anything but a literal. -/
def Follows (before : Option SegmentRole) : SegmentRole → Prop
  | .keyed collection _ => ∃ written, before = some (.literal collection written)
  | .parameter _ => ∀ name written, before ≠ some (.literal name written)
  | _ => True

/-- That each segment may follow the one before it. -/
def InOrder (roles : List SegmentRole) : Prop :=
  ∀ before role after, roles = before ++ role :: after → role.Follows before.getLast?

theorem inOrder_nil : InOrder [] := by
  intro before role after h
  simp at h

theorem InOrder.concat (h : InOrder roles) (hrole : role.Follows roles.getLast?) :
    InOrder (roles ++ [role]) := by
  intro before other after hsplit
  rcases List.eq_nil_or_concat after with rfl | ⟨more, last, rfl⟩
  · have hboth := List.append_inj' hsplit rfl
    obtain rfl : role = other := by simpa using hboth.2
    rw [← hboth.1]
    exact hrole
  · have hinit : roles = before ++ other :: more := by
      have hlast : roles ++ [role] = (before ++ other :: more) ++ [last] := by simpa using hsplit
      exact (List.append_inj' hlast rfl).1
    exact h before other more hinit

end SegmentRole

namespace PathSegment

variable {n : PathNode} {token type : String} {before : List PathSegment} {s : PathSegment}

/-- A cast changes no role. -/
theorem map_role_castLast (type : String) (segments : List PathSegment) :
    (castLast type segments).map (·.role) = segments.map (·.role) := by
  unfold castLast
  rcases List.eq_nil_or_concat segments with rfl | ⟨init, last, rfl⟩
  · rfl
  · simp

/-- A placeholder is a key behind a literal, and no key elsewhere. -/
theorem follows_ofPlaceholder (name : String) (before : List PathSegment) :
    (ofPlaceholder name before).role.Follows (before.map (·.role)).getLast? := by
  rw [List.getLast?_map]
  unfold ofPlaceholder
  split
  · next collection written cast hlast =>
    rw [hlast]
    exact ⟨written, rfl⟩
  · next hnot =>
    intro name written hlast
    obtain ⟨last, hlast, hrole⟩ := Option.map_eq_some_iff.1 hlast
    obtain ⟨role, cast⟩ := last
    obtain rfl : role = .literal name written := hrole
    exact hnot name written cast hlast

theorem follows_ofCall (h : Noted.outcome (ofCall n token) = .ok s) (prior : Option SegmentRole) :
    s.role.Follows prior := by
  rw [PathNode.outcome_ofCall] at h
  obtain rfl := Except.ok.inj h
  unfold PathNode.callOf
  dsimp only
  split
  · trivial
  · split <;> trivial

/-- **What a matched segment means**: a cast when its node stands for one, else
a segment that may follow the ones before it. -/
theorem classify_cases (n : PathNode) (token : String) (before : List PathSegment) :
    (n.isCast = true ∧ Noted.outcome (classify n token before) = .ok none) ∨
    (n.isCast = false ∧ ∃ s, Noted.outcome (classify n token before) = .ok (some s) ∧
      s.role.Follows (before.map (·.role)).getLast?) := by
  have hdotless : ∀ segment, n.segment = segment → Text.hasChar '.' segment = false →
      n.isCast = false := by
    rintro _ rfl hdot
    simp [PathNode.isCast, hdot]
  -- the tests stand in the order of the program, and all but the last kind of
  -- operation rule out one part of what a cast is
  unfold classify
  split
  · next href => exact .inr ⟨hdotless _ href (by decide), _, rfl, trivial⟩
  split
  · next name hspecial =>
    refine .inr ⟨?_, _, rfl, trivial⟩
    unfold specialName? at hspecial
    split at hspecial
    · next hvalue => exact hdotless _ hvalue (by decide)
    · split at hspecial
      · next hcount => exact hdotless _ hcount (by decide)
      · cases hspecial
  split
  · next name hname =>
    have hparameter : n.isParameter = true := by
      by_contra hnot
      simp [PathNode.parameterName?, hnot] at hname
    exact .inr ⟨by simp [PathNode.isCast, hparameter], _, rfl, follows_ofPlaceholder name before⟩
  next hname =>
  have hparameter : n.isParameter = false := by
    cases hparameter : n.isParameter with
    | false => rfl
    | true => simp [PathNode.parameterName?, hparameter] at hname
  split
  · next harguments =>
    obtain ⟨s, hs⟩ := exists_ofCall n token
    refine .inr ⟨by simp [PathNode.isCast, harguments], s, ?_, follows_ofCall hs _⟩
    exact Noted.outcome_map_eq_ok.2 ⟨s, hs, rfl⟩
  next harguments =>
  rw [Bool.not_eq_true] at harguments
  split
  · next hdot =>
    have hcast : n.isCast = (n.operationType == .operation) := by
      simp [PathNode.isCast, hdot, hparameter, harguments]
    cases htype : n.operationType with
    | operation => exact .inl ⟨by rw [hcast, htype]; rfl, rfl⟩
    | action => exact .inr ⟨by rw [hcast, htype]; rfl, _, rfl, trivial⟩
    | function => exact .inr ⟨by rw [hcast, htype]; rfl, _, rfl, trivial⟩
  · next hdot =>
    rw [Bool.not_eq_true] at hdot
    have hcast : n.isCast = false := hdotless _ rfl hdot
    split
    · exact .inr ⟨hcast, _, rfl, trivial⟩
    · exact .inr ⟨hcast, _, rfl, trivial⟩

end PathSegment

namespace Resolution

variable {ix : Index} {path token : String} {ts : List String} {p q place : Place}
variable {child : PathNode}

/-! ## Readings -/

/-- How a segment of a path is read. -/
inductive Reading where
  /-- As a segment of its own. -/
  | segment
  /-- As a cast of the segment before it, to a type that has a node. -/
  | declaredCast
  /-- As a cast of the segment before it, to a type that has no node. -/
  | undeclaredCast
  deriving DecidableEq

/-- How a place reads a segment. Where there is no segment yet, none can be
cast. -/
def Place.reading (ix : Index) (p : Place) (token : String) : Reading :=
  if p.segments.isEmpty then .segment
  else
    match p.node.match? token with
    | some child => if child.isCast then .declaredCast else .segment
    | none =>
      match ix.typeCast? token with
      | .ok (some _) => .undeclaredCast
      | _ => .segment

/-- How a walk reads its segments, as far as it gets. -/
def readings (ix : Index) (path : String) : Place → List String → List Reading
  | _, [] => []
  | p, token :: more =>
    p.reading ix token ::
      match Noted.outcome (p.step ix path token) with
      | .ok q => readings ix path q more
      | .error _ => []

/-- The roles of the segments of a place. -/
def Place.roles (p : Place) : List SegmentRole :=
  p.segments.map (·.role)

/-- What a step does with a segment, by how it is read. -/
inductive Reads (p : Place) : Reading → Place → Prop
  | segment {child : PathNode} {s : PathSegment} : child ∈ p.node.children →
      s.role.Follows p.roles.getLast? → Reads p .segment ⟨child, p.segments ++ [s]⟩
  | declaredCast {child : PathNode} : child ∈ p.node.children → p.segments ≠ [] →
      Reads p .declaredCast ⟨child, PathSegment.castLast child.segment p.segments⟩
  | undeclaredCast {type : String} : p.segments ≠ [] → Reads p .undeclaredCast (p.cast type)

/-! ## Steps -/

/-- A child that stands for a cast is the first segment where there is none to
be cast. -/
theorem enter_first_cast (hfirst : p.segments = []) (hcast : child.isCast = true) :
    Noted.outcome (p.enter child token) =
      .ok ⟨child, [PathSegment.literal (Text.lastComponent child.segment)]⟩ := by
  rcases PathSegment.classify_cases child token p.segments with ⟨-, hnone⟩ | ⟨hnot, -⟩
  · unfold Place.enter
    rw [Noted.outcome_bind, hnone]
    simp [bind, Except.bind, hfirst]
  · rw [hcast] at hnot
    cases hnot

/-- Entering a child, by what the child stands for. -/
theorem reads_of_enter (hchild : child ∈ p.node.children)
    (h : Noted.outcome (p.enter child token) = .ok q) :
    Reads p (if p.segments.isEmpty = false ∧ child.isCast then .declaredCast else .segment) q := by
  rcases PathSegment.classify_cases child token p.segments with
    ⟨hcast, hnone⟩ | ⟨hcast, s, hs, hfollows⟩
  -- a cast changes the segment before it, or stands for itself where there is none
  · by_cases hfirst : p.segments = []
    · rw [enter_first_cast hfirst hcast] at h
      obtain rfl := Except.ok.inj h
      have hsegments : [PathSegment.literal (Text.lastComponent child.segment)] =
          p.segments ++ [PathSegment.literal (Text.lastComponent child.segment)] := by
        rw [hfirst, List.nil_append]
      rw [if_neg (by simp [hfirst]), hsegments]
      exact .segment hchild trivial
    · unfold Place.enter at h
      rw [Noted.outcome_bind, hnone] at h
      rw [if_pos (by simp [hfirst, hcast])]
      obtain rfl : ⟨child, PathSegment.castLast child.segment p.segments⟩ = q := by
        simpa [bind, Except.bind, hfirst] using h
      exact .declaredCast hchild hfirst
  · unfold Place.enter at h
    rw [Noted.outcome_bind, hs] at h
    rw [if_neg (by simp [hcast])]
    obtain rfl : ⟨child, p.segments ++ [s]⟩ = q := by simpa [bind, Except.bind] using h
    exact .segment hchild hfollows

/-- Entering the placeholder that waits at a node, which stands for no cast. -/
theorem reads_of_placeholder (h : Noted.outcome (match p.node.placeholder? with
      | some child => p.enter child token
      | none => Noted.ofOutcome (.error (.path (.noMatch token p.node.path) path (some token)))) =
    .ok q) : Reads p .segment q := by
  split at h
  · next child hchild =>
    have hparameter : child.isParameter = true := List.find?_some hchild
    have hreads := reads_of_enter (List.mem_of_find?_eq_some hchild) h
    rwa [if_neg (by simp [PathNode.isCast, hparameter])] at hreads
  · cases h

/-- **What a step does** is what its reading says. -/
theorem reads_of_step (h : Noted.outcome (p.step ix path token) = .ok q) :
    Reads p (p.reading ix token) q := by
  unfold Place.reading
  cases hmatch : p.node.match? token with
  | some child =>
    rw [Place.step, hmatch] at h
    have hreads := reads_of_enter (PathNode.mem_children_of_match? hmatch) h
    cases hempty : p.segments.isEmpty <;> simpa [hempty] using hreads
  | none =>
    rw [Place.step, hmatch] at h
    obtain ⟨type?, htype, h⟩ := Noted.outcome_bind_eq_ok.1 h
    replace htype : ix.typeCast? token = .ok type? := by
      rwa [← Noted.outcome_ofOutcome (ix.typeCast? token)]
    -- a first segment is no type cast: nothing is in front of it
    cases hempty : p.segments.isEmpty with
    | true =>
      rw [hempty] at h
      cases type? <;> exact reads_of_placeholder h
    | false =>
      rw [hempty] at h
      have hfollows : p.segments ≠ [] := List.isEmpty_eq_false_iff.1 hempty
      cases type? with
      | none => simpa [htype] using reads_of_placeholder h
      | some type =>
        obtain rfl := Noted.outcome_pure_eq_ok.1 h
        have hread : Reads p .undeclaredCast (p.cast type) := .undeclaredCast hfollows
        rwa [htype]

/-! ## Runs -/

/-- How a place that a walk ends at accounts for the one that it started from:
the levels that it went down, the roles that it added, and that it kept them in
order. -/
structure Accounts (p q : Place) (depth : Nat) (added : List SegmentRole) : Prop where
  node : PathNode.AtDepth depth p.node q.node
  roles : q.roles = p.roles ++ added
  inOrder : SegmentRole.InOrder p.roles → SegmentRole.InOrder q.roles

theorem Accounts.refl (p : Place) : Accounts p p 0 [] :=
  ⟨.here p.node, (List.append_nil _).symm, id⟩

theorem Accounts.trans {r : Place} {depth depth' : Nat} {added added' : List SegmentRole}
    (h : Accounts p q depth added) (h' : Accounts q r depth' added') :
    Accounts p r (depth + depth') (added ++ added') where
  node := h.node.trans h'.node
  roles := by rw [h'.roles, h.roles, List.append_assoc]
  inOrder horder := h'.inOrder (h.inOrder horder)

/-- The levels that a reading goes down. -/
def Reading.levels : Reading → Nat
  | .segment => 1
  | .declaredCast => 1
  | .undeclaredCast => 0

/-- The segments that a reading adds. -/
def Reading.segments : Reading → Nat
  | .segment => 1
  | .declaredCast => 0
  | .undeclaredCast => 0

theorem Reads.accounts {reading : Reading} (h : Reads p reading q) :
    ∃ added, Accounts p q reading.levels added ∧ added.length = reading.segments := by
  cases h with
  | @segment child s hchild hfollows =>
    have hroles : Place.roles ⟨child, p.segments ++ [s]⟩ = p.roles ++ [s.role] := by
      simp [Place.roles]
    refine ⟨[s.role], ⟨.down hchild (.here child), hroles, fun horder => ?_⟩, rfl⟩
    rw [hroles]
    exact horder.concat hfollows
  | @declaredCast child hchild _ =>
    have hroles : Place.roles ⟨child, PathSegment.castLast child.segment p.segments⟩ = p.roles :=
      PathSegment.map_role_castLast _ _
    refine ⟨[], ⟨.down hchild (.here child), ?_, fun horder => ?_⟩, rfl⟩
    · rw [hroles, List.append_nil]
    · rwa [hroles]
  | @undeclaredCast type _ =>
    have hroles : (p.cast type).roles = p.roles := PathSegment.map_role_castLast _ _
    refine ⟨[], ⟨.here p.node, ?_, fun horder => ?_⟩, rfl⟩
    · rw [hroles, List.append_nil]
    · rwa [hroles]

/-- **What a walk does**, by how it reads its segments. -/
theorem exists_accounts_of_walk (h : Noted.outcome (walk ix path p ts) = .ok q) :
    ∃ depth added, Accounts p q depth added ∧
      depth + (readings ix path p ts).count .undeclaredCast = ts.length ∧
      added.length + (readings ix path p ts).count .declaredCast +
        (readings ix path p ts).count .undeclaredCast = ts.length := by
  -- over the segments that are left, from the place that the walk has got to
  induction ts generalizing p with
  | nil =>
    obtain rfl := Noted.outcome_pure_eq_ok.1 h
    exact ⟨0, [], .refl p, rfl, rfl⟩
  | cons token more ih =>
    obtain ⟨next, hstep, hmore⟩ := Noted.outcome_bind_eq_ok.1 h
    obtain ⟨first, hfirst, hadded⟩ := (reads_of_step hstep).accounts
    obtain ⟨depth, rest, hrest, hlevels, hsegments⟩ := ih hmore
    have hreadings : readings ix path p (token :: more) =
        p.reading ix token :: readings ix path next more := by
      rw [readings, hstep]
    rw [hreadings, List.count_cons, List.count_cons, List.length_cons]
    refine ⟨_, _, hfirst.trans hrest, ?_, ?_⟩
    · cases p.reading ix token <;> simp [Reading.levels] <;> omega
    · rw [List.length_append, hadded]
      cases p.reading ix token <;> simp [Reading.segments] <;> omega

/-- A first segment is a segment of its own. -/
theorem exists_head_of_walk (hfirst : p.segments = [])
    (h : Noted.outcome (walk ix path p (token :: ts)) = .ok q) :
    ∃ next s, Noted.outcome (p.step ix path token) = .ok next ∧ next.segments = [s] ∧
      q.roles.head? = some s.role := by
  obtain ⟨next, hstep, hmore⟩ := Noted.outcome_bind_eq_ok.1 h
  obtain ⟨depth, added, hrest, -⟩ := exists_accounts_of_walk hmore
  have hreading : p.reading ix token = .segment := by simp [Place.reading, hfirst]
  have hreads := reads_of_step hstep
  rw [hreading] at hreads
  cases hreads with
  | @segment child s =>
    refine ⟨_, s, hstep, by simp [hfirst], ?_⟩
    rw [hrest.roles]
    simp [Place.roles, hfirst]

/-- **How a walk accounts for the segments of a path.** Where it gets to the end
of a path, the place it ends at has a segment, its node is one level down for
each segment of the path that is no cast without a node, and it has a segment
for each one that is no cast at all; a name of a type that comes first casts
nothing and is a literal. A key is right behind the literal of its collection,
and any other placeholder is not behind a literal. -/
theorem walk_accounts_for_segments (hne : Path.segments path ≠ [])
    (hwalk : Noted.outcome (walk ix path ⟨ix.root, []⟩ (Path.segments path)) = .ok place) :
    place.segments ≠ [] ∧
    (∃ depth, PathNode.AtDepth depth ix.root place.node ∧
      depth + (readings ix path ⟨ix.root, []⟩ (Path.segments path)).count .undeclaredCast =
        (Path.segments path).length ∧
      ∀ doc validate, Index.ofDoc doc validate = .ok ix →
        (Path.segments place.node.path).length = depth) ∧
    place.segments.length +
        (readings ix path ⟨ix.root, []⟩ (Path.segments path)).count .declaredCast +
        (readings ix path ⟨ix.root, []⟩ (Path.segments path)).count .undeclaredCast =
      (Path.segments path).length ∧
    SegmentRole.InOrder place.roles ∧
    ∀ token more child, Path.segments path = token :: more →
      ix.root.match? token = some child → child.isCast = true →
      place.roles.head? = some (.literal (Text.lastComponent child.segment) none) := by
  obtain ⟨depth, added, haccounts, hlevels, hsegments⟩ := exists_accounts_of_walk hwalk
  have hroles : place.roles = added := haccounts.roles
  have hadded : added.length = place.segments.length := by
    rw [← hroles, Place.roles, List.length_map]
  refine ⟨?_, ⟨depth, haccounts.node, hlevels, fun doc validate hdoc => ?_⟩, ?_, ?_, ?_⟩
  · obtain ⟨token, more, htokens⟩ := List.exists_cons_of_ne_nil hne
    rw [htokens] at hwalk
    obtain ⟨next, s, -, -, hhead⟩ := exists_head_of_walk rfl hwalk
    intro hempty
    rw [Place.roles, hempty] at hhead
    cases hhead
  · have hlength := haccounts.node.length_segments_path (Index.placedAt_root hdoc)
    rwa [List.length_nil, Nat.zero_add] at hlength
  · rwa [← hadded]
  · exact haccounts.inOrder SegmentRole.inOrder_nil
  · intro token more child htokens hmatch hcast
    rw [htokens] at hwalk
    obtain ⟨next, s, hstep, hnext, hhead⟩ := exists_head_of_walk rfl hwalk
    rw [Place.step, hmatch] at hstep
    obtain rfl := Except.ok.inj ((enter_first_cast rfl hcast).symm.trans hstep)
    obtain rfl : PathSegment.literal _ = s := by simpa using hnext
    exact hhead

/-- An item of a collection cast to a type. -/
def adminNode : PathNode where
  segment := "ns.admin"
  path := "/users/\x7bid\x7d/ns.admin"

/-- An item of the collection. -/
def userNode : PathNode where
  segment := "\x7bid\x7d"
  path := "/users/\x7bid\x7d"
  children := [adminNode]

/-- The collection. -/
def userCollection : PathNode where
  segment := "users"
  path := "/users"
  children := [userNode]

/-- An API with a cast that has a node, and a type that has none. -/
def castIndex : Index where
  catalog :=
    { document := .map [], schemas := [("ns.user", .map [(.text "type", .text "object")])] }
  root := { segment := "", path := "/", children := [userCollection] }

/-- An item cast twice. -/
def castPlace : Place where
  node := adminNode
  segments := [⟨.literal "users" none, some "ns.user"⟩, ⟨.keyed "users" "id", some "ns.admin"⟩]

theorem walk_accounts_for_segments_admin :
    Path.segments "/users/ns.user/alice/ns.admin" ≠ [] ∧
      Noted.outcome (walk castIndex "/users/ns.user/alice/ns.admin" ⟨castIndex.root, []⟩
        (Path.segments "/users/ns.user/alice/ns.admin")) = .ok castPlace ∧
      (∃ depth, PathNode.AtDepth depth castIndex.root castPlace.node ∧
        depth + (readings castIndex "/users/ns.user/alice/ns.admin" ⟨castIndex.root, []⟩
          (Path.segments "/users/ns.user/alice/ns.admin")).count .undeclaredCast = 4) ∧
      SegmentRole.InOrder castPlace.roles := by
  have hpath : Path.segments "/users/ns.user/alice/ns.admin" =
      ["users", "ns.user", "alice", "ns.admin"] := rfl
  have hne : Path.segments "/users/ns.user/alice/ns.admin" ≠ [] := by
    rw [hpath]
    exact List.cons_ne_nil _ _
  have htype : castIndex.typeCast? "ns.user" = .ok (some "ns.user") := by cbv
  have hkey : castIndex.typeCast? "alice" = .ok none :=
    Index.typeCast?_of_not_isDotted (by simp [Index.IsDotted])
  have hwalk : Noted.outcome (walk castIndex "/users/ns.user/alice/ns.admin"
      ⟨castIndex.root, []⟩ (Path.segments "/users/ns.user/alice/ns.admin")) =
        .ok castPlace := by
    rw [hpath, walk, Noted.outcome_bind]
    show Noted.outcome (walk castIndex "/users/ns.user/alice/ns.admin"
      ⟨userCollection, [PathSegment.literal "users"]⟩ ["ns.user", "alice", "ns.admin"]) = _
    rw [walk, Noted.outcome_bind, outcome_step_of_unmatched rfl rfl, htype]
    show Noted.outcome (walk castIndex "/users/ns.user/alice/ns.admin"
      ⟨userCollection, [⟨.literal "users" none, some "ns.user"⟩]⟩ ["alice", "ns.admin"]) = _
    rw [walk, Noted.outcome_bind, outcome_step_of_unmatched rfl rfl, hkey]
    rfl
  obtain ⟨-, ⟨depth, hdepth, hlevels, -⟩, -, horder, -⟩ := walk_accounts_for_segments hne hwalk
  exact ⟨hne, hwalk, ⟨depth, hdepth, hlevels⟩, horder⟩

end Resolution

end ApiSnippets
