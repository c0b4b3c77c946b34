import ApiSnippets.Proofs.Request.Query
import ApiSnippets.Proofs.Schema.Templates
import ApiSnippets.Resolution.Request
/-!
# Templates lead to themselves

A request whose path is spelled as a template reaches the node of that
template, whatever else its siblings are: a child is looked up by its exact
segment before anything else, and siblings are distinct. What remains is that
every hop on the way, from the URL to the walk and to the second look-up,
leaves the path as it is (`resolveIn_own_path`).
-/

namespace ApiSnippets

/-! ## Classification -/

namespace PathSegment

theorem exists_ofCall (n : PathNode) (segment : String) :
    ∃ s, Noted.outcome (ofCall n segment) = .ok s := by
  unfold ofCall
  simp only
  split
  · exact ⟨_, rfl⟩
  · rw [Noted.outcome_bind, Noted.outcome_forIn fun _ _ => rfl]
    exact ⟨_, rfl⟩

/-- **Every segment can be classified**: what a template does not declare is
only noted. -/
theorem exists_classify (n : PathNode) (segment : String) (before : List PathSegment) :
    ∃ s, Noted.outcome (classify n segment before) = .ok s := by
  unfold classify
  split
  · exact ⟨_, rfl⟩
  split
  · exact ⟨_, rfl⟩
  split
  · exact ⟨_, rfl⟩
  split
  · obtain ⟨s, hs⟩ := exists_ofCall n segment
    exact ⟨some s, Noted.outcome_map_eq_ok.2 ⟨s, hs, rfl⟩⟩
  split
  · exact ⟨_, rfl⟩
  split <;> exact ⟨_, rfl⟩

theorem castLast_ne_nil {type : String} {segments : List PathSegment} (h : segments ≠ []) :
    castLast type segments ≠ [] := by
  unfold castLast
  rw [List.getLast?_eq_some_getLast h]
  simp

end PathSegment

namespace Resolution

variable {ix : Index} {path : String} {p : Place} {n child : PathNode}

/-! ## The walk -/

/-- Entering a child never fails, and leaves a segment behind. -/
theorem exists_enter (p : Place) (child : PathNode) (segment : String) :
    ∃ place, Noted.outcome (p.enter child segment) = .ok place ∧
      place.node = child ∧ place.segments ≠ [] := by
  obtain ⟨s, hs⟩ := PathSegment.exists_classify child segment p.segments
  unfold Place.enter
  rw [Noted.outcome_bind, hs]
  cases s with
  | some s => exact ⟨_, rfl, rfl, by simp⟩
  | none =>
    -- a cast leaves no segment of its own, unless there is none to cast
    by_cases hfirst : p.segments = []
    · refine ⟨⟨child, [PathSegment.literal (Text.lastComponent child.segment)]⟩, ?_, rfl, by simp⟩
      simp [bind, Except.bind, hfirst]
    · refine ⟨⟨child, PathSegment.castLast child.segment p.segments⟩, ?_, rfl, ?_⟩
      · simp [bind, Except.bind, hfirst]
      · exact PathSegment.castLast_ne_nil hfirst

/-- **An exact child is preferred** to every other way of reading a segment. -/
theorem match?_of_child? {segment : String} (h : n.child? segment = some child) :
    n.match? segment = some child := by
  unfold PathNode.match?
  rw [h, Option.some_or]

theorem step_of_child? {segment : String} (h : p.node.child? segment = some child) :
    p.step ix path segment = p.enter child segment := by
  unfold Place.step
  rw [match?_of_child? h]

/-- A walk along exact segments ends where they lead. -/
theorem exists_walk {segs : List String} (h : p.node.find? segs = some n)
    (hne : segs ≠ [] ∨ p.segments ≠ []) :
    ∃ place, Noted.outcome (walk ix path p segs) = .ok place ∧
      place.node = n ∧ place.segments ≠ [] := by
  induction segs generalizing p with
  | nil =>
    obtain rfl := Option.some.inj h
    exact ⟨p, rfl, rfl, hne.resolve_left (by simp)⟩
  | cons s segs ih =>
    obtain ⟨child, hchild, h⟩ := Option.bind_eq_some_iff.1 h
    obtain ⟨next, hnext, rfl, hsegments⟩ := exists_enter p child s
    obtain ⟨place, hplace, hnode⟩ := ih h (.inr hsegments)
    refine ⟨place, ?_, hnode⟩
    rw [walk, step_of_child? hchild]
    exact Noted.outcome_bind_eq_ok.2 ⟨next, hnext, hplace⟩

/-! ## The path of a node -/

/-- The path of a node below the root is not empty, and it is the path of the
segments it is split into. -/
theorem ownPath {doc : Doc} {validate : Bool} (h : Index.ofDoc doc validate = .ok ix)
    (hn : n ∈ PathNode.walkAll ix.root.children) :
    ix.root.find? (Path.segments n.path) = some n ∧ Path.segments n.path ≠ [] ∧
      n.path = Path.ofSegments (Path.segments n.path) := by
  have hroot := Index.placedAt_root h
  have hmem : n ∈ ix.root.walk := by
    rw [PathNode.walk_eq]
    exact List.mem_cons_of_mem _ hn
  have hfind := hroot.find?_segments_path hmem
  refine ⟨hfind, ?_, (hroot.find? hfind).path⟩
  obtain ⟨c, hc, hbelow⟩ := PathNode.exists_mem_walk_of_mem_walkAll hn
  have hprefix := (hroot.of_mem_children hc).prefix_segments_path hbelow
  intro hnil
  rw [hnil] at hprefix
  simp at hprefix

/-- A node is what its path is looked up as. -/
theorem resolve_of_find? (h : ix.root.find? (Path.segments path) = some n) :
    ix.resolve path =
      some ⟨n.path, Path.segments path, n.operations, n.children.map (·.segment)⟩ := by
  unfold Index.resolve
  simp only [h, Option.map_some]

/-! ## Requests -/

variable {r : HttpRequest} {version : String} {url : Url}

/-- That a request asks for a path of an API version, whose name is made of
letters, digits and dots. -/
structure AsksFor (r : HttpRequest) (version path : String) (url : Url) : Prop where
  parsed : Url.parse (Text.stripped r.url) = .ok url
  decoded : Text.percentDecode url.path.toList = ("/" ++ version ++ path).toList
  nonempty : version ≠ ""
  letters : ∀ c ∈ version.toList, Text.isWord c = true ∨ c = '.'

/-- The name of a version is one segment. -/
theorem segmentsOf_version (hne : version ≠ "")
    (h : ∀ c ∈ version.toList, Text.isWord c = true ∨ c = '.') :
    Path.segmentsOf version.toList = [version.toList] := by
  have hslash : '/' ∉ version.toList := by
    intro hmem
    exact absurd (h _ hmem) (by decide)
  refine Path.segmentsOf_of_whole (Text.whole_of_not_mem hslash) ?_
  intro hnil
  exact hne (String.toList_eq_nil_iff.1 hnil)

theorem after_version (h : ∀ c ∈ version.toList, Text.isWord c = true ∨ c = '.') :
    Text.Nesting.after true .outside version.toList = .outside := by
  refine Text.Nesting.after_of_not_isMark fun c hc => ?_
  have hword := h c hc
  by_contra hmark
  rw [Bool.not_eq_false, Text.Nesting.isMark, Bool.or_eq_true, Bool.or_eq_true, beq_iff_eq,
    beq_iff_eq, beq_iff_eq] at hmark
  rcases hmark with (rfl | rfl) | rfl <;> exact absurd hword (by decide)

/-- What a request is about: the version and the path it asks for, when the
path has no legacy beginning. -/
theorem target_of_asksFor (h : AsksFor r version path url)
    (hpath : path = Path.ofSegments (Path.segments path)) (hmodern : Path.modernise path = path) :
    target r = .ok (url, version, path) := by
  have hsegments : Path.segments (String.ofList (Text.percentDecode url.path.toList)) =
      version :: Path.segments path := by
    have hchars : ("/" ++ version ++ path).toList =
        '/' :: (version.toList ++ path.toList) := by
      simp
    -- the path begins with the slash that ends the version
    have hrest : path.toList =
        '/' :: List.intercalate ['/'] ((Path.segments path).map String.toList) := by
      rw [← Path.toList_ofSegments, ← hpath]
    unfold Path.segments
    rw [h.decoded, String.toList_ofList, hchars, Path.segmentsOf_cons_slash, hrest,
      Path.segmentsOf_append_slash (after_version h.letters),
      segmentsOf_version h.nonempty h.letters, Path.segmentsOf_cons_slash]
    simp
  refine Outcome.bind_eq_ok.2 ⟨url, h.parsed, ?_⟩
  rw [hsegments]
  refine Outcome.pure_eq_ok.2 ?_
  rw [← hpath, hmodern]

/-- What is answered for a request that asks for the path of a node: what the
query string says about the operation of the node. -/
theorem outcome_resolve {op : Operation} (htarget : target r = .ok (url, version, n.path))
    (hfind : ix.root.find? (Path.segments n.path) = some n) (hne : Path.segments n.path ≠ [])
    (hop : n.operation? r.method = some op) :
    ∃ segments, Noted.outcome (resolve ix r) =
      (Query.parse url.query op).map fun query =>
        { method := r.method
          version := version
          path := n.path
          template := n.path
          segments := segments
          operation := op
          query := query
          headers := callHeaders r.headers
          contentType := r.contentType?
          body := r.body
          index := ix } := by
  obtain ⟨place, hwalk, hnode, hsegments⟩ : ∃ place,
      Noted.outcome (walk ix n.path ⟨ix.root, []⟩ (Path.segments n.path)) = .ok place ∧
        place.node = n ∧ place.segments ≠ [] := exists_walk hfind (.inl hne)
  obtain ⟨node, segments⟩ := place
  obtain rfl : node = n := hnode
  refine ⟨segments, ?_⟩
  have hlookup : (ix.resolve node.path).bind (·.operation? r.method) = some op := by
    rw [resolve_of_find? hfind]
    exact hop
  have hfilled : ¬ segments.isEmpty = true := by simpa using hsegments
  -- the steps of a request in their order: target, walk, look-up, query string
  unfold resolve
  rw [Noted.outcome_bind]
  show (Noted.outcome (Noted.ofOutcome (target r)) >>= _) = _
  rw [Noted.outcome_ofOutcome, htarget]
  show Noted.outcome (walk ix node.path ⟨ix.root, []⟩ (Path.segments node.path) >>= _) = _
  rw [Noted.outcome_bind, hwalk]
  show Noted.outcome (if segments.isEmpty then _ else _) = _
  rw [if_neg hfilled]
  dsimp only
  rw [hlookup]
  show Noted.outcome (Noted.ofOutcome (Query.parse url.query op) >>= _) = _
  rw [Noted.outcome_bind, Noted.outcome_ofOutcome]
  cases Query.parse url.query op <;> rfl

/-- A registry that has an index for the version answers with that index. -/
theorem resolveIn_of_get {S W : Type} {build : S → W → Outcome Index × W}
    {registry : Registry S Index} {w : W} (htarget : target r = .ok (url, version, path))
    (hserved : (registry.get build version w).1 = .ok ix) :
    (resolveIn build registry r w).1 = resolve ix r := by
  have hversion : versionOf r = .ok version :=
    Outcome.bind_eq_ok.2 ⟨_, htarget, rfl⟩
  unfold resolveIn
  rw [hversion]
  simp only
  rw [hserved]

/-- **A template leads to itself.** The path of a node is looked up as that
node, and walked to it. A request that asks for it, with a method that the
node has, is resolved to its template and its operation exactly when no option
of the query string takes digits for an integer that they do not stand for. -/
theorem resolveIn_own_path {doc : Doc} {validate : Bool}
    (hix : Index.ofDoc doc validate = .ok ix) (hn : n ∈ PathNode.walkAll ix.root.children) :
    ix.resolve n.path =
        some ⟨n.path, Path.segments n.path, n.operations, n.children.map (·.segment)⟩ ∧
      (∃ place, Noted.outcome (walk ix n.path ⟨ix.root, []⟩ (Path.segments n.path)) = .ok place ∧
        place.node = n ∧ place.segments ≠ []) ∧
      ∀ {S W : Type} (build : S → W → Outcome Index × W) (registry : Registry S Index) (w : W)
        (r : HttpRequest) (version : String) (url : Url) (op : Operation),
        (registry.get build version w).1 = .ok ix → AsksFor r version n.path url →
        Path.modernise n.path = n.path → n.operation? r.method = some op →
          ((∃ resolved, Noted.outcome (resolveIn build registry r w).1 = .ok resolved ∧
              resolved.template = n.path ∧ resolved.operation = op) ↔
            ∀ pair ∈ Text.splitAll '&' url.query.toList, ¬ Query.Unreadable op pair) ∧
          ∀ e, Noted.outcome (resolveIn build registry r w).1 = .error e →
            e = .defect .value := by
  obtain ⟨hfind, hne, hpath⟩ := ownPath hix hn
  refine ⟨resolve_of_find? hfind, exists_walk hfind (.inl hne), ?_⟩
  intro S W build registry w r version url op hserved hasks hmodern hop
  have htarget := target_of_asksFor hasks hpath hmodern
  obtain ⟨segments, hresolve⟩ := outcome_resolve htarget hfind hne hop
  rw [resolveIn_of_get htarget hserved, hresolve]
  rw [← Query.exists_parse]
  refine ⟨⟨?_, ?_⟩, ?_⟩
  · rintro ⟨resolved, hresolved, -⟩
    obtain ⟨query, hquery, -⟩ := Outcome.map_eq_ok.1 hresolved
    exact ⟨query, hquery⟩
  · rintro ⟨query, hquery⟩
    exact ⟨_, Outcome.map_eq_ok.2 ⟨query, hquery, rfl⟩, rfl, rfl⟩
  · intro e he
    exact (Query.parse_eq_error.1 (Outcome.map_eq_error.1 he)).1

/-- A function beside a placeholder and a property of the same name. -/
def pingDocument : Doc :=
  .map [(.text "paths", .map
    [(.text "/me/\x7bid\x7d", .map [(.text "get", .map [])]),
     (.text "/me/ping", .map [(.text "get", .map [])]),
     (.text "/me/ns.ping(at=/)", .map [(.text "get", .map [])])])]

/-- A request for the function, with a query string. -/
def pingRequest (query : String) : HttpRequest :=
  { method := .get, url := "https://graph.microsoft.com/v1.0/me/ns.ping(at=/)?" ++ query }

/-- The operation that a template without anything but a method has. -/
def bareOperation : Operation :=
  { method := .get, operationType := .function }

/-- The function in the tree of `pingDocument`. -/
def pingNode : PathNode :=
  { segment := "ns.ping(at=/)", path := "/me/ns.ping(at=/)", operations := [(.get, bareOperation)] }

/-- The index of `pingDocument`. -/
def pingIndex : Index :=
  { catalog := { document := pingDocument, schemas := [] }
    root :=
      { segment := "", path := "/", children :=
        [{ segment := "me", path := "/me", children :=
          [{ segment := "\x7bid\x7d", path := "/me/\x7bid\x7d",
             operations := [(.get, { method := .get })] },
           { segment := "ping", path := "/me/ping", operations := [(.get, { method := .get })] },
           pingNode] }] } }

/-- A registry that has built one index for one version. -/
def registryOf (version : String) (ix : Index) : Registry Unit Index :=
  { cells := [(version, { source := (), value := some ix })] }

/-- What `pingRequest` is answered with by a registry that serves its
version. -/
def pingAnswer (query : String) : Outcome ResolvedRequest :=
  Noted.outcome (resolveIn (fun _ w => (.ok pingIndex, w)) (registryOf "v1.0" pingIndex)
    (pingRequest query) ()).1

theorem ofDoc_pingDocument : Index.ofDoc pingDocument false = .ok pingIndex := rfl

theorem mem_pingNode : pingNode ∈ PathNode.walkAll pingIndex.root.children := by
  simp [pingIndex, PathNode.walkAll, PathNode.walk, PathNode.mem_walk_self]

theorem served_pingIndex :
    ((registryOf "v1.0" pingIndex).get (fun _ w => (.ok pingIndex, w)) "v1.0" ()).1 =
      .ok pingIndex := by
  have hlower : Text.lower "v1.0" = "v1.0" := by decide
  simp [Registry.get, registryOf, hlower, Entries.get?, Cell.get]

theorem letters_version : ∀ c ∈ "v1.0".toList, Text.isWord c = true ∨ c = '.' := by
  have hall : ("v1.0".toList.all fun c => Text.isWord c || c == '.') = true := rfl
  intro c hc
  simpa using List.all_eq_true.1 hall c hc

theorem modernise_pingNode : Path.modernise pingNode.path = pingNode.path := rfl

theorem resolveIn_own_path_ping :
    ∃ resolved, pingAnswer "$top=2" = .ok resolved ∧
      resolved.template = pingNode.path ∧ resolved.operation = bareOperation := by
  obtain ⟨-, -, hall⟩ := resolveIn_own_path ofDoc_pingDocument mem_pingNode
  have hurl : (pingRequest "$top=2").url =
      "https://graph.microsoft.com/v1.0/me/ns.ping(at=/)?$top=2" := by rfl
  have hparsed : Url.parse
      (Text.stripped "https://graph.microsoft.com/v1.0/me/ns.ping(at=/)?$top=2") =
        .ok ⟨"/v1.0/me/ns.ping(at=/)", "$top=2"⟩ := rfl
  have hasks : AsksFor (pingRequest "$top=2") "v1.0" pingNode.path
      ⟨"/v1.0/me/ns.ping(at=/)", "$top=2"⟩ :=
    ⟨by rw [hurl, hparsed], rfl, by decide, letters_version⟩
  refine (hall _ _ _ _ _ _ _ served_pingIndex hasks modernise_pingNode rfl).1.2 ?_
  exact Query.exists_parse.1 ⟨_, rfl⟩

end Resolution

end ApiSnippets
