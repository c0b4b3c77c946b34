import ApiSnippets.Proofs.Entries
import ApiSnippets.Proofs.Outcome
import ApiSnippets.Schema.Source
/-!
# Loading documents over time

One cache serves many loads, and what a server replies may change from one to
the next. A session is a sequence of loads that share the documents kept; all
else that a load finds, the replies of servers and the files included, is its
own. As long as no document expires, the cache shows only in what is not
downloaded: a URL that was loaded before gives the document it gave then, any
other is downloaded once, and failures are not kept (`session_transparent`).
What is no URL has nothing to do with the cache.
-/

namespace ApiSnippets

namespace Source

/-- A source that is a URL. -/
def IsUrl (source : String) : Prop :=
  ofText source = .url source

instance (source : String) : Decidable (IsUrl source) :=
  inferInstanceAs (Decidable (ofText source = .url source))

variable {caching : Caching} {source : String} {w : Workspace} {d : Doc} {ds : Documents}

/-- What is no URL is the standard input or a file. -/
theorem ofText_of_not_isUrl (h : ¬ IsUrl source) :
    ofText source = .input ∨ ofText source = .file source := by
  unfold IsUrl ofText at *
  split at h
  · exact .inl (by simp_all)
  · split at h
    · exact absurd rfl h
    · exact .inr (by simp_all)

/-! ## One load -/

/-- A document that is kept is not downloaded. -/
theorem load_of_hit (hurl : IsUrl source) (h : caching.get? source w.documents = some d) :
    load caching source w = (.ok d, w) := by
  have hof : ofText source = .url source := hurl
  simp only [load, hof, loadUrl, h]

/-- **Without a kept document there is one download**, whose document is kept
when there is one. -/
theorem load_of_miss (hurl : IsUrl source) (h : caching.get? source w.documents = none) :
    load caching source w = ((download source w).1,
      { w with
        downloads := w.downloads ++ [source]
        documents := match (download source w).1 with
          | .ok d => caching.put source d w.documents
          | .error _ => w.documents }) := by
  have hof : ofText source = .url source := hurl
  simp only [load, hof, loadUrl, h]
  split
  · next d after hd =>
    obtain ⟨hresult, rfl⟩ := Prod.mk.inj hd
    simp [download, hresult]
  · next e after he =>
    obtain ⟨hresult, rfl⟩ := Prod.mk.inj he
    simp [download, hresult]

/-- What is read from the standard input, and that nothing else changes. -/
theorem loadInput_eq : loadInput w =
    ((match Text.ofFile? w.input with
      | some s =>
        if Text.isBlankText s.toList then .error (.index .emptyInput) else Doc.parse .none s
      | none => .error (.defect .encoding)), { w with input := [] }) := by
  unfold loadInput Workspace.readInput
  cases Text.ofFile? w.input with
  | none => rfl
  | some s =>
    dsimp only
    split
    · rfl
    · rfl

theorem fileText_withDocuments (path : String) :
    fileText path { w with documents := ds } = fileText path w := by
  have hexpand : ∀ p, Workspace.expand { w with documents := ds } p = w.expand p := fun _ => rfl
  have hlong : ∀ p, Workspace.isOverlong { w with documents := ds } p = w.isOverlong p :=
    fun _ => rfl
  have htext : ∀ p, Workspace.text { w with documents := ds } p = w.text p := fun p => by
    simp only [Workspace.text, Workspace.locate]
  simp only [fileText, hexpand, hlong, htext]

/-- **What is no URL has nothing to do with the cache.** -/
theorem load_of_not_isUrl (hurl : ¬ IsUrl source) :
    (load caching source w).2.documents = w.documents ∧
      (load caching source w).2.downloads = w.downloads ∧
      ∀ c ds, (load c source { w with documents := ds }).1 = (load caching source w).1 := by
  rcases ofText_of_not_isUrl hurl with hof | hof
  · simp only [load, hof, loadInput_eq, implies_true, and_self]
  · simp only [load, hof, loadFile, fileText_withDocuments, implies_true, and_self]

/-! ## Sessions -/

/-- A load: its source, and what is there when it is done. -/
structure Load where
  source : String
  found : Workspace

/-- A load that was done: the documents kept before it and after it, what it
gave, and the URLs that were downloaded. -/
structure Loaded extends Load where
  before : Documents
  after : Documents
  result : Outcome Doc
  downloads : List String

/-- A load done with the documents that are kept. -/
def Load.run (caching : Caching) (ds : Documents) (l : Load) : Loaded :=
  let (result, w) := load caching l.source { l.found with documents := ds, downloads := [] }
  { l with before := ds, after := w.documents, result := result, downloads := w.downloads }

/-- **What happens** when loads are done in turn. -/
def session (caching : Caching) : Documents → List Load → List Loaded
  | _, [] => []
  | ds, l :: ls => l.run caching ds :: session caching (l.run caching ds).after ls

/-- Two sources that are the same URL but for white space around it. -/
def SameUrl (s t : String) : Prop :=
  IsUrl s ∧ IsUrl t ∧ Text.stripped s = Text.stripped t

instance (s t : String) : Decidable (SameUrl s t) :=
  inferInstanceAs (Decidable (_ ∧ _ ∧ _))

/-- What a load gives that downloads its URL. -/
def Load.downloaded (l : Load) : Outcome Doc :=
  (download l.source l.found).1

/-- A reply to a request for a URL holds a document: it has a code of success,
its octets have a text, and the text parses as the document, in the format that
the content type or else the URL names. -/
def Reads (url : String) (reply : Reply) (d : Doc) : Prop :=
  ∃ status contentType content text, reply = .response status contentType content ∧
    200 ≤ status ∧ status < 300 ∧ (Charset.ofContentType contentType).read content = .ok text ∧
    Doc.parse (replyHint contentType url) (String.ofList text) = .ok d

variable {l : Load} {ls : List Load} {e : Loaded} {earlier : List Loaded}

theorem ofReply_eq_ok {url : String} {reply : Reply} :
    ofReply url reply = .ok d ↔ Reads url reply d := by
  cases reply with
  | failure reason => simp [ofReply, Reads]
  | response status contentType content =>
    constructor
    · intro h
      simp only [ofReply] at h
      split at h
      · next hstatus =>
        obtain ⟨text, htext, hparse⟩ := Outcome.bind_eq_ok.1 h
        exact ⟨status, contentType, content, text, rfl, hstatus.1, hstatus.2, htext, hparse⟩
      · cases h
    · rintro ⟨_, _, _, text, ⟨⟩, hlow, hhigh, htext, hparse⟩
      rw [ofReply, if_pos ⟨hlow, hhigh⟩, htext]
      exact hparse

/-- **A download gives the document in the reply**, where there is one. -/
theorem downloaded_eq_ok : l.downloaded = .ok d ↔
    Address.isValid l.source = true ∧ Reads l.source (l.found.network l.source) d := by
  rw [Load.downloaded, download, ← ofReply_eq_ok]
  cases Address.isValid l.source <;> simp

theorem run_of_hit (hurl : IsUrl l.source) (h : caching.get? l.source ds = some d) :
    l.run caching ds = { l with before := ds, after := ds, result := .ok d, downloads := [] } := by
  have hload : load caching l.source { l.found with documents := ds, downloads := [] } =
      (.ok d, { l.found with documents := ds, downloads := [] }) := load_of_hit hurl h
  simp only [Load.run, hload]

theorem run_of_miss (hurl : IsUrl l.source) (h : caching.get? l.source ds = none) :
    l.run caching ds =
      { l with
        before := ds
        after := match l.downloaded with
          | .ok d => caching.put l.source d ds
          | .error _ => ds
        result := l.downloaded
        downloads := [l.source] } := by
  have hload := load_of_miss (w := { l.found with documents := ds, downloads := [] }) hurl h
  simp only [Load.run, hload]
  rfl

/-- What is no URL is loaded without a look at the documents that are kept. -/
theorem run_of_not_isUrl (hurl : ¬ IsUrl l.source) :
    (l.run caching ds).after = ds ∧ (l.run caching ds).downloads = [] ∧
      ∀ c ds', (l.run c ds').result = (l.run caching ds).result := by
  obtain ⟨hdocuments, hdownloads, hresult⟩ :
      (load caching l.source { l.found with documents := ds, downloads := [] }).2.documents = ds ∧
        (load caching l.source { l.found with documents := ds, downloads := [] }).2.downloads = [] ∧
        ∀ c ds', (load c l.source { l.found with documents := ds', downloads := [] }).1 =
          (load caching l.source { l.found with documents := ds, downloads := [] }).1 :=
    load_of_not_isUrl hurl
  exact ⟨hdocuments, hdownloads, hresult⟩

theorem map_session {ds : Documents} : (session caching ds ls).map Loaded.toLoad = ls := by
  induction ls generalizing ds with
  | nil => rfl
  | cons l ls ih => rw [session, List.map_cons, ih]; rfl

/-! ## A cache in which nothing expires -/

/-- A load as it has to be after earlier ones. -/
structure Transparent (earlier : List Loaded) (e : Loaded) : Prop where
  /-- A URL that gave a document gives it again. -/
  again : ∀ d, (∃ x ∈ earlier, SameUrl x.source e.source ∧ x.result = .ok d) →
    e.result = .ok d ∧ e.downloads = []
  /-- Any other URL is downloaded once, and gives what the download gives: the
  document that the reply holds, or a fault. -/
  anew : IsUrl e.source →
    (∀ x ∈ earlier, SameUrl x.source e.source → ∀ d, x.result ≠ .ok d) →
    e.downloads = [e.source] ∧ e.result = e.downloaded ∧
      ∀ d, e.result = .ok d ↔
        Address.isValid e.source = true ∧ Reads e.source (e.found.network e.source) d
  /-- What fails is not kept. -/
  failed : ∀ fault, e.result = .error fault → e.after = e.before
  /-- What is no URL neither reads nor changes the documents that are kept. -/
  apart : ¬ IsUrl e.source → e.downloads = [] ∧ e.after = e.before ∧
    ∀ c ds, (e.toLoad.run c ds).result = e.result

/-- That the documents kept are those that URLs gave so far. -/
def Holds (ds : Documents) (earlier : List Loaded) : Prop :=
  ∀ key d, Entries.get? ds key = some d ↔
    ∃ x ∈ earlier, IsUrl x.source ∧ Text.stripped x.source = key ∧ x.result = .ok d

theorem holds_nil : Holds [] [] := by
  intro key d
  simp [Entries.get?]

/-- A load that gives no new document leaves what is held. -/
theorem Holds.append (h : Holds ds earlier) (hsame : IsUrl e.source → ∀ d, e.result = .ok d →
    Entries.get? ds (Text.stripped e.source) = some d) : Holds ds (earlier ++ [e]) := by
  intro key d
  constructor
  · intro hget
    obtain ⟨x, hx, hrest⟩ := (h key d).1 hget
    exact ⟨x, List.mem_append_left _ hx, hrest⟩
  · rintro ⟨x, hx, hurl, rfl, hresult⟩
    rcases List.mem_append.1 hx with hx | hx
    · exact (h _ d).2 ⟨x, hx, hurl, rfl, hresult⟩
    · obtain rfl := List.mem_singleton.1 hx
      exact hsame hurl d hresult

/-- A load that gives the first document of its URL adds that document. -/
theorem Holds.put (h : Holds ds earlier) (hurl : IsUrl e.source) (hresult : e.result = .ok d)
    (hnone : Entries.get? ds (Text.stripped e.source) = none) :
    Holds (Entries.put (Text.stripped e.source) d ds) (earlier ++ [e]) := by
  intro key d'
  rw [Entries.get?_put]
  by_cases hkey : key = Text.stripped e.source
  · subst hkey
    simp only [beq_self_eq_true, if_true, Option.some.injEq]
    constructor
    · rintro rfl
      exact ⟨e, by simp, hurl, rfl, hresult⟩
    · rintro ⟨x, hx, hxurl, hstripped, hx'⟩
      rcases List.mem_append.1 hx with hx | hx
      · -- nothing was held for this URL, so no earlier load of it gave anything
        have hheld := (h _ d').2 ⟨x, hx, hxurl, hstripped, hx'⟩
        simp [hnone] at hheld
      · obtain rfl := List.mem_singleton.1 hx
        simpa [hresult] using hx'
  · simp only [beq_eq_false_iff_ne.2 hkey, Bool.false_eq_true, if_false, h key d']
    constructor
    · rintro ⟨x, hx, hrest⟩
      exact ⟨x, List.mem_append_left _ hx, hrest⟩
    · rintro ⟨x, hx, hxurl, rfl, hx'⟩
      rcases List.mem_append.1 hx with hx | hx
      · exact ⟨x, hx, hxurl, rfl, hx'⟩
      · exact absurd (by rw [List.mem_singleton.1 hx]) hkey

/-- In a cache in which nothing expires, documents are kept under their URL
without the white space around it. -/
theorem get?_of_lasting (source : String) (ds : Documents) (henabled : caching.enabled = true)
    (hlasting : 0 < caching.lifetime) :
    caching.get? source ds = Entries.get? ds (Text.stripped source) := by
  simp [Caching.get?, henabled, hlasting]

theorem put_of_lasting (henabled : caching.enabled = true) (hlasting : 0 < caching.lifetime) :
    caching.put source d ds = Entries.put (Text.stripped source) d ds := by
  have hnot : ¬ caching.lifetime < 0 := by omega
  simp [Caching.put, henabled, hnot]

/-- What earlier loads of a URL gave is what is held for it. -/
theorem Holds.gave_iff (h : Holds ds earlier) (hurl : IsUrl source) :
    (∃ x ∈ earlier, SameUrl x.source source ∧ x.result = .ok d) ↔
      Entries.get? ds (Text.stripped source) = some d := by
  rw [h]
  constructor
  · rintro ⟨x, hx, ⟨hxurl, -, hstripped⟩, hresult⟩
    exact ⟨x, hx, hxurl, hstripped, hresult⟩
  · rintro ⟨x, hx, hxurl, hstripped, hresult⟩
    exact ⟨x, hx, ⟨hxurl, hurl, hstripped⟩, hresult⟩

/-- A URL that gave a document before. -/
theorem transparent_of_held (h : Holds ds earlier) (hurl : IsUrl e.source)
    (hheld : Entries.get? ds (Text.stripped e.source) = some d) (hresult : e.result = .ok d)
    (hdownloads : e.downloads = []) :
    Transparent earlier e ∧ Holds ds (earlier ++ [e]) := by
  refine ⟨⟨?_, ?_, ?_, fun hnot => absurd hurl hnot⟩, ?_⟩
  · intro d' hd'
    obtain rfl : d = d' := Option.some.inj (hheld.symm.trans ((h.gave_iff hurl).1 hd'))
    exact ⟨hresult, hdownloads⟩
  · -- what is held was given by an earlier load
    intro _ hnever
    obtain ⟨x, hx, hsame, hx'⟩ := (h.gave_iff hurl).2 hheld
    exact absurd hx' (hnever x hx hsame d)
  · intro fault hfault
    simp [hresult] at hfault
  · refine h.append fun _ d' hd' => ?_
    obtain rfl : d = d' := by simpa [hresult] using hd'
    exact hheld

/-- A URL that gave no document before. -/
theorem transparent_of_not_held (h : Holds ds earlier) (hurl : IsUrl e.source)
    (hnone : Entries.get? ds (Text.stripped e.source) = none)
    (hresult : e.result = e.downloaded) (hdownloads : e.downloads = [e.source])
    (hbefore : e.before = ds)
    (hafter : e.after = match e.result with
      | .ok d => Entries.put (Text.stripped e.source) d ds
      | .error _ => ds) :
    Transparent earlier e ∧ Holds e.after (earlier ++ [e]) := by
  refine ⟨⟨?_, fun _ _ => ⟨hdownloads, hresult, fun d => hresult ▸ downloaded_eq_ok⟩, ?_,
    fun hnot => absurd hurl hnot⟩, ?_⟩
  · intro d hd
    rw [h.gave_iff hurl, hnone] at hd
    cases hd
  · intro fault hfault
    simp only [hafter, hfault, hbefore]
  · cases hgiven : e.result with
    | error fault =>
      simp only [hafter, hgiven]
      exact h.append (by simp [hgiven])
    | ok d =>
      simp only [hafter, hgiven]
      exact h.put hurl hgiven hnone

/-- **One load.** It gives what the earlier ones make it give, and what is
held afterwards is what was given until then. -/
theorem transparent_run (henabled : caching.enabled = true) (hlasting : 0 < caching.lifetime)
    (h : Holds ds earlier) (l : Load) :
    Transparent earlier (l.run caching ds) ∧
      Holds (l.run caching ds).after (earlier ++ [l.run caching ds]) := by
  by_cases hurl : IsUrl l.source
  · have hget := get?_of_lasting l.source ds henabled hlasting
    cases hkept : caching.get? l.source ds with
    | some d =>
      rw [run_of_hit hurl hkept]
      exact transparent_of_held h hurl (hget.symm.trans hkept) rfl rfl
    | none =>
      rw [run_of_miss hurl hkept]
      refine transparent_of_not_held h hurl (hget.symm.trans hkept) rfl rfl rfl ?_
      simp only [put_of_lasting henabled hlasting]
  · obtain ⟨hafter, hdownloads, hresult⟩ : (l.run caching ds).after = ds ∧
        (l.run caching ds).downloads = [] ∧
        ∀ c ds', (l.run c ds').result = (l.run caching ds).result := run_of_not_isUrl hurl
    refine ⟨⟨?_, fun h => absurd h hurl, fun _ _ => hafter,
      fun _ => ⟨hdownloads, hafter, hresult⟩⟩, ?_⟩
    · rintro d ⟨x, -, ⟨-, hxurl, -⟩, -⟩
      exact absurd hxurl hurl
    · rw [hafter]
      exact h.append fun h => absurd h hurl

/-- **Every load of a session gives what the ones before it make it give.** -/
theorem transparent_of_session {before after : List Loaded} (henabled : caching.enabled = true)
    (hlasting : 0 < caching.lifetime) (h : Holds ds earlier)
    (hs : session caching ds ls = before ++ e :: after) : Transparent (earlier ++ before) e := by
  -- on the loads: what one leaves behind is what the next finds
  induction ls generalizing ds earlier before with
  | nil => simp [session] at hs
  | cons l ls ih =>
    obtain ⟨htransparent, hnext⟩ := transparent_run henabled hlasting h l
    rw [session] at hs
    cases before with
    | nil =>
      obtain ⟨rfl, -⟩ := List.cons.inj hs
      rwa [List.append_nil]
    | cons x before =>
      obtain ⟨rfl, hrest⟩ := List.cons.inj hs
      have hlater := ih hnext hrest
      rwa [List.append_assoc] at hlater

/-- Without a cache every URL is downloaded. -/
theorem run_of_disabled (hdisabled : caching.enabled = false) (hurl : IsUrl l.source) :
    l.run caching ds = { l with
      before := ds, after := ds, result := l.downloaded, downloads := [l.source] } := by
  have hmiss : caching.get? l.source ds = none := by simp [Caching.get?, hdisabled]
  have hput : ∀ d, caching.put l.source d ds = ds := fun d => by simp [Caching.put, hdisabled]
  rw [run_of_miss hurl hmiss]
  cases l.downloaded <;> simp [hput]

/-- A load of a URL in a workspace where every server gives one reply. -/
def fetching (source : String) (reply : Reply) : Load :=
  ⟨source, { files := {}, folder := [], network := fun _ => reply }⟩

/-- A document with a member. -/
def memberDocument : Doc :=
  .map [(.text "a", .scalar (.bool true))]

/-- The text of `memberDocument`. -/
def memberText : String :=
  "\x7b\"a\":true\x7d"

/-- The reply that holds `memberDocument`. -/
def memberReply : Reply :=
  .response 200 "application/json" (Utf8.encode memberText.toList)

theorem read_memberText : Json.read memberText = .ok (.obj [("a", .bool true)]) := by
  simp [memberText, Json.read, Json.Reader.value, Json.Reader.membersFrom, Json.Reader.skip,
    Json.Reader.isGap, Json.Reader.stringBody, Json.Reader.stringBody.push, Json.Reader.scalar,
    Json.Reader.word?, Json.Reader.wordTable, Json.Reader.after?, Entries.ofPairs, Entries.putAll,
    Entries.put, bind, Except.bind, pure, Except.pure]

theorem reads_memberReply (url : String) : Reads url memberReply memberDocument := by
  refine ⟨_, _, _, memberText.toList, rfl, by decide, by decide, by rfl, ?_⟩
  have hhint : replyHint "application/json" url = .json := by rfl
  rw [hhint, String.ofList_toList, Doc.parse, if_neg (by decide), read_memberText]
  rfl

/-- No server, then a document, then one that is not asked for. -/
def threeLoads : List Load :=
  [fetching "https://a.b" (.failure "down"), fetching "https://a.b" memberReply,
    fetching "https://a.b " (.response 404 "" [])]

end Source

end ApiSnippets
