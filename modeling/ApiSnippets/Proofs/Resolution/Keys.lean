import ApiSnippets.Proofs.Resolution.OwnPath
import ApiSnippets.Proofs.Snippet
/-!
# Values of keys

The value that stands for a placeholder in a path leads to the same place as
any other: a placeholder is classified by its own name. So two requests whose
paths differ only in such values are resolved alike, or refused alike, and
their snippets are the same (`resolve_ignores_keys`). That a segment stands for
a placeholder is a fact about the walk that reaches it, and has to be asked of
both walks: what names a child or a type is read as that.
-/

namespace ApiSnippets

/-! ## Outcomes that are alike -/

/-- A cause without the URL it is about. -/
def PathFault.withoutUrl : PathFault → PathFault
  | noVersion _ => noVersion ""
  | noResource _ => noResource ""
  | cause => cause

/-- A fault without the URL and the path of the request. -/
def Fault.withoutPath : Fault → Fault
  | path cause _ segment => path cause.withoutUrl "" segment
  | e => e

namespace Outcome

variable {α β : Type} {R : α → α → Prop} {S : β → β → Prop}

/-- Two related values, or two faults that differ at most in the URL and the
path they name. -/
inductive Alike (R : α → α → Prop) : Outcome α → Outcome α → Prop
  | ok {a b : α} : R a b → Alike R (.ok a) (.ok b)
  | error {e e' : Fault} : e.withoutPath = e'.withoutPath → Alike R (.error e) (.error e')

theorem Alike.refl (hR : ∀ a, R a a) (x : Outcome α) : Alike R x x := by
  cases x with
  | ok a => exact .ok (hR a)
  | error e => exact .error rfl

theorem Alike.bind {x y : Outcome α} {f g : α → Outcome β} (h : Alike R x y)
    (hfg : ∀ a b, x = .ok a → y = .ok b → R a b → Alike S (f a) (g b)) :
    Alike S (x >>= f) (y >>= g) := by
  cases h with
  | ok hab => exact hfg _ _ rfl rfl hab
  | error he => exact .error he

end Outcome

namespace Resolution

open Outcome (Alike)

variable {ix : Index} {path path' : String} {p : Place} {child : PathNode}
variable {segment segment' : String} {ts ts' : List String}

/-! ## One segment -/

/-- That nothing but a placeholder matches a segment at a place. -/
structure Place.ReadsAsKey (ix : Index) (p : Place) (segment : String) (child : PathNode) :
    Prop where
  unmatched : p.node.match? segment = none
  /-- The segment casts to no type, or there is nothing to cast. -/
  cast : ∃ type, ix.typeCast? segment = .ok type ∧ (type = none ∨ p.segments = [])
  placeholder : p.node.placeholder? = some child

theorem step_of_readsAsKey (h : p.ReadsAsKey ix segment child) :
    Noted.outcome (p.step ix path segment) = Noted.outcome (p.enter child segment) := by
  obtain ⟨type, htype, hcast⟩ := h.cast
  unfold Place.step
  rw [h.unmatched]
  show Noted.outcome (Noted.ofOutcome (ix.typeCast? segment) >>= _) = _
  rw [Noted.outcome_bind, Noted.outcome_ofOutcome, htype]
  rcases hcast with rfl | hfirst
  · simp [bind, Except.bind, h.placeholder]
  · cases type <;> simp [bind, Except.bind, h.placeholder, hfirst]

theorem exists_parameterName? (h : child.isParameter = true) :
    ∃ name, child.parameterName? = some name := by
  simp [PathNode.parameterName?, h]

/-- **A placeholder is classified by its name**, whatever stands for it. -/
theorem enter_placeholder (h : child.isParameter = true) :
    p.enter child segment = p.enter child segment' := by
  obtain ⟨name, hname⟩ := exists_parameterName? h
  unfold Place.enter PathSegment.classify
  simp only [hname]

/-- Two values of one placeholder lead to the same place. -/
theorem step_readsAsKey_alike (h : p.ReadsAsKey ix segment child)
    (h' : p.ReadsAsKey ix segment' child) :
    Alike Eq (Noted.outcome (p.step ix path segment))
      (Noted.outcome (p.step ix path' segment')) := by
  have hparameter : child.isParameter = true := List.find?_some h.placeholder
  rw [step_of_readsAsKey h, step_of_readsAsKey h', enter_placeholder hparameter]
  exact .refl (fun _ => rfl) _

/-- A step depends on the path only in what it says when it fails. -/
theorem step_alike (ix : Index) (path path' : String) (p : Place) (segment : String) :
    Alike Eq (Noted.outcome (p.step ix path segment))
      (Noted.outcome (p.step ix path' segment)) := by
  unfold Place.step
  split
  · exact .refl (fun _ => rfl) _
  rw [Noted.outcome_bind, Noted.outcome_bind]
  refine Alike.bind (.refl (fun _ => rfl) _) ?_
  rintro type _ - - rfl
  split
  · exact .refl (fun _ => rfl) _
  split
  · exact .refl (fun _ => rfl) _
  · exact .error rfl

/-! ## Walks -/

/-- That a walk reaches its segment at a position, where it stands for a
placeholder. -/
def ReachesKey (ix : Index) (path : String) (p : Place) (ts : List String) (i : Nat)
    (child : PathNode) : Prop :=
  ∃ place segment, Noted.outcome (walk ix path p (ts.take i)) = .ok place ∧
    ts[i]? = some segment ∧ place.ReadsAsKey ix segment child

/-- That the segments of two paths differ only where both walks take them for
the same placeholder. -/
structure DifferInKeys (ix : Index) (path path' : String) (p : Place) (ts ts' : List String) :
    Prop where
  length : ts.length = ts'.length
  keys : ∀ i, ts[i]? ≠ ts'[i]? →
    ∃ child, ReachesKey ix path p ts i child ∧ ReachesKey ix path' p ts' i child

theorem ReachesKey.take {i n : Nat} (h : ReachesKey ix path p ts i child) (hi : i < n) :
    ReachesKey ix path p (ts.take n) i child := by
  obtain ⟨place, key, hwalk, hkey, hreads⟩ := h
  refine ⟨place, key, ?_, ?_, hreads⟩
  · rw [List.take_take, Nat.min_eq_left (Nat.le_of_lt hi)]
    exact hwalk
  · rw [List.getElem?_take_of_lt hi]
    exact hkey

theorem DifferInKeys.take (h : DifferInKeys ix path path' p ts ts') (n : Nat) :
    DifferInKeys ix path path' p (ts.take n) (ts'.take n) := by
  refine ⟨by rw [List.length_take, List.length_take, h.length], fun i hi => ?_⟩
  have hlt : i < n := by
    by_contra hge
    have hle : n ≤ i := Nat.le_of_not_lt hge
    exact hi (by rw [List.getElem?_take_eq_none hle, List.getElem?_take_eq_none hle])
  rw [List.getElem?_take_of_lt hlt, List.getElem?_take_of_lt hlt] at hi
  obtain ⟨child, hkey, hkey'⟩ := h.keys i hi
  exact ⟨child, hkey.take hlt, hkey'.take hlt⟩

theorem ReachesKey.head (h : ReachesKey ix path p (segment :: ts) 0 child) :
    p.ReadsAsKey ix segment child := by
  obtain ⟨place, key, hwalk, hkey, hreads⟩ := h
  obtain rfl : p = place := Noted.outcome_pure_eq_ok.1 hwalk
  obtain rfl : segment = key := Option.some.inj hkey
  exact hreads

theorem ReachesKey.tail {q : Place} {i : Nat}
    (h : ReachesKey ix path p (segment :: ts) (i + 1) child)
    (hq : Noted.outcome (p.step ix path segment) = .ok q) : ReachesKey ix path q ts i child := by
  obtain ⟨place, key, hwalk, hkey, hreads⟩ := h
  refine ⟨place, key, ?_, hkey, hreads⟩
  rw [List.take_succ_cons, walk, Noted.outcome_bind, hq] at hwalk
  exact hwalk

/-- **Walks that differ in keys lead to the same place**, or fail at the same
segment. The induction is on the segments, and a step of both walks leads to
one place. -/
theorem walk_alike (h : DifferInKeys ix path path' p ts ts') :
    Alike Eq (Noted.outcome (walk ix path p ts)) (Noted.outcome (walk ix path' p ts')) := by
  induction ts generalizing p ts' with
  | nil =>
    obtain rfl : ts' = [] := List.length_eq_zero_iff.1 h.length.symm
    exact .ok rfl
  | cons t ts ih =>
    obtain ⟨t', ts', rfl⟩ := List.exists_cons_of_length_eq_add_one h.length.symm
    have hstep : Alike Eq (Noted.outcome (p.step ix path t))
        (Noted.outcome (p.step ix path' t')) := by
      by_cases ht : t = t'
      · subst ht
        exact step_alike ix path path' p t
      · obtain ⟨child, hkey, hkey'⟩ := h.keys 0 (by simpa using ht)
        exact step_readsAsKey_alike hkey.head hkey'.head
    rw [walk, walk, Noted.outcome_bind, Noted.outcome_bind]
    refine hstep.bind ?_
    rintro q _ hq hq' rfl
    refine ih ⟨by simpa using h.length, fun i hi => ?_⟩
    obtain ⟨child, hkey, hkey'⟩ := h.keys (i + 1) (by simpa using hi)
    exact ⟨child, hkey.tail hq, hkey'.tail hq'⟩

/-! ## Requests -/

variable {r r' : HttpRequest} {url url' : Url} {version : String}

/-- What is answered for a request that asks for a path, once the walk has
ended. -/
def answer (ix : Index) (r : HttpRequest) (url : Url) (version path : String) (place : Place) :
    Outcome ResolvedRequest :=
  if place.segments.isEmpty then .error (.path (.noResource r.url) path none)
  else
    match (ix.resolve place.node.path).bind (·.operation? r.method) with
    | none => .error (.path (.noOperation (Text.upper r.method.name) place.node.path) path none)
    | some op =>
      (Query.parse url.query op).map fun query =>
        { method := r.method
          version := version
          path := path
          template := place.node.path
          segments := place.segments
          operation := op
          query := query
          headers := callHeaders r.headers
          contentType := r.contentType?
          body := r.body
          index := ix }

theorem outcome_resolve_of_target (h : target r = .ok (url, version, path)) :
    Noted.outcome (resolve ix r) =
      Noted.outcome (walk ix path ⟨ix.root, []⟩ (Path.segments path)) >>=
        answer ix r url version path := by
  unfold resolve
  rw [Noted.outcome_bind]
  show (Noted.outcome (Noted.ofOutcome (target r)) >>= _) = _
  rw [Noted.outcome_ofOutcome, h]
  show Noted.outcome (walk ix path ⟨ix.root, []⟩ (Path.segments path) >>= _) = _
  rw [Noted.outcome_bind]
  refine congrArg (_ >>= ·) (funext fun place => ?_)
  unfold answer
  split
  · rfl
  cases (ix.resolve place.node.path).bind (·.operation? r.method) with
  | none => rfl
  | some op =>
    dsimp only
    show Noted.outcome (Noted.ofOutcome (Query.parse url.query op) >>= _) = _
    rw [Noted.outcome_bind, Noted.outcome_ofOutcome]
    cases Query.parse url.query op <;> rfl

/-- Two resolved requests for which the same call is written. -/
structure SameCall (a b : ResolvedRequest) : Prop where
  template : a.template = b.template
  segments : a.segments = b.segments
  operation : a.operation = b.operation
  snippets : ∀ l ∈ Language.all, Snippet.generate l a = Snippet.generate l b

theorem sameCall_path (a : ResolvedRequest) (path : String) :
    SameCall a { a with path := path } where
  template := rfl
  segments := rfl
  operation := rfl
  snippets := fun _ hl => (Snippet.generate_path a path hl).symm

/-- The answer depends on the path only in what no snippet shows. -/
theorem answer_alike (hmethod : r.method = r'.method) (hquery : url.query = url'.query)
    (hheaders : r.headers = r'.headers) (hbody : r.body = r'.body) (place : Place) :
    Alike SameCall (answer ix r url version path place)
      (answer ix r' url' version path' place) := by
  have hcontent : r.contentType? = r'.contentType? := by
    rw [HttpRequest.contentType?, HttpRequest.contentType?, hheaders]
  unfold answer
  rw [hmethod, hquery, hheaders, hbody, hcontent]
  split
  · exact .error rfl
  split
  · exact .error rfl
  · cases Query.parse url'.query _ with
    | error e => exact .error rfl
    | ok query => exact .ok (sameCall_path _ path')

/-- **Values of keys have no influence.** Two requests with the same method,
version, query string, headers and body, whose paths differ only in what stands
for the same placeholders, are walked to the same places. They are resolved to
the same template, segments and operation, and every language has the same
snippet for both; or they are refused for the same reason at the same
segment. -/
theorem resolve_ignores_keys (htarget : target r = .ok (url, version, path))
    (htarget' : target r' = .ok (url', version, path')) (hmethod : r.method = r'.method)
    (hquery : url.query = url'.query) (hheaders : r.headers = r'.headers)
    (hbody : r.body = r'.body)
    (hkeys : DifferInKeys ix path path' ⟨ix.root, []⟩ (Path.segments path) (Path.segments path')) :
    (∀ i, Alike Eq
      (Noted.outcome (walk ix path ⟨ix.root, []⟩ ((Path.segments path).take i)))
      (Noted.outcome (walk ix path' ⟨ix.root, []⟩ ((Path.segments path').take i)))) ∧
    Alike SameCall (Noted.outcome (resolve ix r)) (Noted.outcome (resolve ix r')) := by
  refine ⟨fun i => walk_alike (hkeys.take i), ?_⟩
  rw [outcome_resolve_of_target htarget, outcome_resolve_of_target htarget']
  refine (walk_alike hkeys).bind ?_
  rintro place _ - - rfl
  exact answer_alike hmethod hquery hheaders hbody place

/-- A collection whose elements have a key. -/
def usersNode : PathNode :=
  { segment := "users", path := "/users", children :=
    [{ segment := "\x7bid\x7d", path := "/users/\x7bid\x7d",
       operations := [(.get, { method := .get })] }] }

/-- An index of that collection. -/
def usersIndex : Index where
  catalog := { document := .map [], schemas := [] }
  root := { segment := "", path := "/", children := [usersNode] }

/-- A request for the user with a key. -/
def userRequest (key : String) : HttpRequest where
  method := .get
  url := "https://graph.microsoft.com/v1.0/users/" ++ key ++ "?$top=2"

theorem walk_users : Noted.outcome (walk usersIndex path ⟨usersIndex.root, []⟩ ["users"]) =
    .ok ⟨usersNode, [PathSegment.literal "users"]⟩ := rfl

theorem target_alice : target (userRequest "alice") =
    .ok (⟨"/v1.0/users/alice", "$top=2"⟩, "v1.0", "/users/alice") := by
  have hurl : (userRequest "alice").url =
      "https://graph.microsoft.com/v1.0/users/alice?$top=2" := by rfl
  have hparsed : Url.parse (Text.stripped "https://graph.microsoft.com/v1.0/users/alice?$top=2") =
      .ok ⟨"/v1.0/users/alice", "$top=2"⟩ := rfl
  exact target_of_asksFor ⟨by rw [hurl, hparsed], rfl, by decide, letters_version⟩ rfl rfl

theorem target_bob : target (userRequest "bob") =
    .ok (⟨"/v1.0/users/bob", "$top=2"⟩, "v1.0", "/users/bob") := by
  have hurl : (userRequest "bob").url =
      "https://graph.microsoft.com/v1.0/users/bob?$top=2" := by rfl
  have hparsed : Url.parse (Text.stripped "https://graph.microsoft.com/v1.0/users/bob?$top=2") =
      .ok ⟨"/v1.0/users/bob", "$top=2"⟩ := rfl
  exact target_of_asksFor ⟨by rw [hurl, hparsed], rfl, by decide, letters_version⟩ rfl rfl

theorem resolve_ignores_keys_users :
    ∃ a b, Noted.outcome (resolve usersIndex (userRequest "alice")) = .ok a ∧
      Noted.outcome (resolve usersIndex (userRequest "bob")) = .ok b ∧
      a.path = "/users/alice" ∧ b.path = "/users/bob" ∧ SameCall a b := by
  have hsegments : Path.segments "/users/alice" = ["users", "alice"] := rfl
  have hsegments' : Path.segments "/users/bob" = ["users", "bob"] := rfl
  have hkeys : DifferInKeys usersIndex "/users/alice" "/users/bob" ⟨usersIndex.root, []⟩
      (Path.segments "/users/alice") (Path.segments "/users/bob") := by
    rw [hsegments, hsegments']
    refine ⟨rfl, fun i hi => ?_⟩
    match i with
    | 0 => exact absurd rfl hi
    | 1 =>
      exact ⟨_, ⟨_, _, walk_users, rfl, rfl, ⟨none, rfl, .inl rfl⟩, rfl⟩,
        ⟨_, _, walk_users, rfl, rfl, ⟨none, rfl, .inl rfl⟩, rfl⟩⟩
    | i + 2 => exact absurd rfl hi
  obtain ⟨-, halike⟩ := resolve_ignores_keys target_alice target_bob rfl rfl rfl rfl hkeys
  obtain ⟨a, ha, hpath⟩ : ∃ a, Noted.outcome (resolve usersIndex (userRequest "alice")) = .ok a ∧
      a.path = "/users/alice" := by
    rw [outcome_resolve_of_target target_alice, hsegments]
    exact ⟨_, rfl, rfl⟩
  obtain ⟨b, hb, hpath'⟩ : ∃ b, Noted.outcome (resolve usersIndex (userRequest "bob")) = .ok b ∧
      b.path = "/users/bob" := by
    rw [outcome_resolve_of_target target_bob, hsegments']
    exact ⟨_, rfl, rfl⟩
  rw [ha, hb] at halike
  cases halike with
  | ok hsame => exact ⟨a, b, ha, hb, hpath, hpath', hsame⟩

end Resolution

end ApiSnippets
