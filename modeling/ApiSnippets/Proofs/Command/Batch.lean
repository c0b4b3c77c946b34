import ApiSnippets.Command.Batch
import ApiSnippets.Proofs.Command.Console
import ApiSnippets.Proofs.Files
import ApiSnippets.Proofs.Outcome
import ApiSnippets.Proofs.Registry
import ApiSnippets.Proofs.Schema.Source
import ApiSnippets.Proofs.Text.Cut
/-!
# A batch, request by request

The requests of a batch share a registry of indexes and a folder, into which
the batch writes while it reads from it. Neither shows: what a request file
gives does not depend on the files before it. The snippets have names that no
request file has and that no two requests share, and an index that loads is
the same one whenever it is asked for. So a batch leaves the snippets that
each request gives by itself, and ends with the code of the first request that
fails by itself.

That holds while every file is harmless. A request in a defect, a snippet that
cannot be written or a report that the terminal refuses ends the whole batch
(`Command.runBatch_isolated`).
-/

namespace ApiSnippets

namespace Batch

/-! ## Names -/

section Names

variable {file other id : String}

/-- A request file is its stem and the ending. -/
theorem eq_stem_append (h : Text.hasEnd requestSuffix file = true) :
    file = stem file ++ requestSuffix := by
  obtain ⟨cs, hcs⟩ := List.isSuffixOf_iff_suffix.1 h
  have hstem : stem file = String.ofList cs := by
    have hlen : file.length - requestSuffix.length = cs.length := by
      rw [← String.length_toList, ← String.length_toList, ← hcs, List.length_append]
      omega
    rw [stem, hlen, ← hcs, List.take_left]
  rw [← String.toList_inj, hstem]
  simp [hcs]

/-- The identifiers of languages have no hyphens and no slashes. -/
theorem not_mem_of_mem_ids (h : id ∈ Language.ids) : '-' ∉ id.toList ∧ '/' ∉ id.toList := by
  have hall : ∀ l ∈ Language.ids, '-' ∉ l.toList ∧ '/' ∉ l.toList := by decide
  exact hall id h

theorem afterLast_snippetFile (h : id ∈ Language.ids) :
    Text.afterLast '-' (snippetFile file id).toList = id.toList := by
  have hlist : (snippetFile file id).toList = (stem file ++ "--").toList ++ '-' :: id.toList := by
    simp [snippetFile]
  rw [hlist, Text.afterLast_append (not_mem_of_mem_ids h).1]

/-- **Different snippets go to different files.** -/
theorem snippetFile_inj {id' : String} (hfile : Text.hasEnd requestSuffix file = true)
    (hother : Text.hasEnd requestSuffix other = true) (hid : id ∈ Language.ids)
    (hid' : id' ∈ Language.ids) (h : snippetFile file id = snippetFile other id') :
    file = other ∧ id = id' := by
  have hids : id.toList = id'.toList := by
    rw [← afterLast_snippetFile hid, h, afterLast_snippetFile hid']
  obtain rfl := String.toList_inj.1 hids
  have hstem : stem file = stem other := by
    simpa [snippetFile] using h
  refine ⟨?_, rfl⟩
  rw [eq_stem_append hfile, eq_stem_append hother, hstem]

/-- **No snippet goes to a request file.** -/
theorem snippetFile_ne (hother : Text.hasEnd requestSuffix other = true)
    (hid : id ∈ Language.ids) : snippetFile file id ≠ other := by
  intro h
  have hlast : Text.afterLast '-' other.toList = "httpSnippet".toList := by
    have hlist : other.toList = (stem other).toList ++ '-' :: "httpSnippet".toList := by
      conv_lhs => rw [eq_stem_append hother]
      simp [requestSuffix]
    rw [hlist, Text.afterLast_append (by decide)]
  rw [← h, afterLast_snippetFile hid] at hlast
  obtain rfl := String.toList_inj.1 hlast
  exact absurd hid (by decide)

theorem isEntry_of_mem {name : String} (hslash : '/' ∉ name.toList) (h : '-' ∈ name.toList) :
    Files.IsEntry name := by
  refine ⟨hslash, ?_, ?_, ?_⟩
  all_goals
    rintro rfl
    exact absurd h (by decide)

theorem isEntry_of_hasEnd (hslash : '/' ∉ file.toList)
    (h : Text.hasEnd requestSuffix file = true) : Files.IsEntry file := by
  refine isEntry_of_mem hslash ?_
  rw [eq_stem_append h]
  simp [requestSuffix]

theorem isEntry_snippetFile (hslash : '/' ∉ file.toList) (hid : id ∈ Language.ids) :
    Files.IsEntry (snippetFile file id) := by
  have hstem : '/' ∉ (stem file).toList := by
    intro h
    rw [stem, String.toList_ofList] at h
    exact hslash (List.mem_of_mem_take h)
  have hslash : '/' ∉ (snippetFile file id).toList := by
    simp [snippetFile, hstem, (not_mem_of_mem_ids hid).2]
  exact isEntry_of_mem hslash (by simp [snippetFile])

end Names

/-! ## Requests by themselves -/

variable (config : Config) (ids : List String) (folder : String) (w : Workspace)

/-- The request in a file of the folder. -/
def requestIn (file : String) : Outcome HttpRequest :=
  request file (w.text (folder ++ "/" ++ file))

/-- What a request file gives by itself: the snippets for its request by
language, or why there is one that it does not have. -/
def alone (file : String) : Outcome (List (String × String)) := do
  let q ← requestIn folder w file
  let r ← (Command.resolved config q w).1
  let texts ← Outcome.mapAll (Snippet.generateIn r) ids
  pure (Entries.ofPairs (ids.zip texts))

/-- A text that some request file gives by itself has its file at a place. -/
def Wanted (place : Place) (text : String) : Prop :=
  ∃ file ∈ requestFiles w folder, ∃ texts id, alone config ids folder w file = .ok texts ∧
    (id, text) ∈ texts ∧ w.locate (folder ++ "/" ++ snippetFile file id) = some place

/-- The first fault of a request file that fails by itself, in the order of the
files. -/
def firstFault? : Option Fault :=
  (requestFiles w folder).findSome? fun file =>
    match alone config ids folder w file with
    | .ok _ => none
    | .error e => some e

/-- A version that a request of the folder asks for. -/
def Asks (v : String) : Prop :=
  ∃ file ∈ requestFiles w folder, ∃ q, requestIn folder w file = .ok q ∧
    Resolution.versionOf q = .ok v

/-- What a batch can have come to before the index for a version is asked for
the first time: indexes for other versions were loaded, and snippets for their
requests were written. -/
inductive Meanwhile (v : String) : Workspace → Prop
  | start : Meanwhile v w
  | load {w' : Workspace} {u : String} {c : Cell String Index} (h : Meanwhile v w')
      (hu : Asks folder w u) (hother : config.registry.shares u v = false)
      (hc : config.registry.cell? u = some c) :
      Meanwhile v (Source.index config.caching c.source w').2
  | write {w' w'' : Workspace} {u file id text : String} {c : Cell String Index}
      (h : Meanwhile v w') (hu : Asks folder w u) (hother : config.registry.shares u v = false)
      (hc : config.registry.cell? u = some c) (hfile : file ∈ requestFiles w folder)
      (hid : id ∈ ids) (hwrite : w'.write? (folder ++ "/" ++ snippetFile file id)
        (Utf8.encode text.toList) = some w'') : Meanwhile v w''

/-- **The indexes load**: for every version that is asked for there is one, and
it is the same whenever its turn comes. -/
def Loads : Prop :=
  ∀ v c, Asks folder w v → config.registry.cell? v = some c →
    ∃ ix, ∀ w', Meanwhile config ids folder w v w' →
      (Source.index config.caching c.source w').1 = .ok ix

variable {config ids folder w}

/-! ## Loading -/

/-- Loading an index touches no file. -/
theorem index_files (caching : Caching) (source : String) (w : Workspace) :
    (Source.index caching source w).2.files = w.files ∧
      (Source.index caching source w).2.folder = w.folder := by
  have hload : (Source.load caching source w).2.files = w.files ∧
      (Source.load caching source w).2.folder = w.folder := by
    unfold Source.load
    split
    · rw [Source.loadInput_eq]
      exact ⟨rfl, rfl⟩
    · unfold Source.loadUrl
      split
      · exact ⟨rfl, rfl⟩
      · split <;> (next hd => obtain ⟨-, rfl⟩ := Prod.mk.inj hd; exact ⟨rfl, rfl⟩)
    · exact ⟨rfl, rfl⟩
  exact hload

/-! ## The state of a batch -/

variable (config ids folder w) in
/-- What the workspace of a batch has in common with the one it began with. -/
structure Kept (w' : Workspace) : Prop where
  same : w'.SameFolders w
  request : ∀ file ∈ requestFiles w folder, requestIn folder w' file = requestIn folder w file

variable (config ids folder w) in
/-- A cell of the batch beside the cell it began with: it is built, or nothing
but the requests of other cells has come by. -/
structure CellKept (w' : Workspace) (v : String) (c c' : Cell String Index) : Prop where
  source : c'.source = c.source
  value : ∀ ix, c'.value = some ix → (Source.index config.caching c.source w).1 = .ok ix
  empty : c'.value = none → Meanwhile config ids folder w v w'

variable (config ids folder w) in
/-- The registry of a batch beside the one it began with. -/
structure RegistryKept (registry : Registry String Index) (w' : Workspace) : Prop where
  hasOverride : registry.hasOverride = config.registry.hasOverride
  versions : registry.versions = config.registry.versions
  unserved : ∀ v, config.registry.cell? v = none → registry.cell? v = none
  served : ∀ v c, config.registry.cell? v = some c →
    ∃ c', registry.cell? v = some c' ∧ CellKept config ids folder w w' v c c'

variable {w' w'' : Workspace} {registry : Registry String Index} {u v : String}
variable {c : Cell String Index} {ix : Index}

/-- The cells of a configuration are empty at first. -/
theorem value_of_cell? (hc : config.registry.cell? v = some c) : c.value = none := by
  rw [Config.registry, Registry.cell?_ofSources] at hc
  obtain ⟨source, -, rfl⟩ := Option.map_eq_some_iff.1 hc
  rfl

theorem kept_self : Kept folder w w :=
  ⟨⟨rfl, fun _ => rfl⟩, fun _ _ => rfl⟩

theorem registryKept_self : RegistryKept config ids folder w config.registry w where
  hasOverride := rfl
  versions := rfl
  unserved _ h := h
  served v c hc := by
    refine ⟨c, hc, rfl, ?_, fun _ => .start⟩
    intro ix hix
    rw [value_of_cell? hc] at hix
    cases hix

theorem Kept.load (h : Kept folder w w') (caching : Caching) (source : String) :
    Kept folder w (Source.index caching source w').2 := by
  obtain ⟨hfiles, hfolder⟩ := index_files caching source w'
  refine ⟨⟨hfolder.trans h.same.folder, hfiles ▸ h.same.folders⟩, fun file hfile => ?_⟩
  rw [← h.request file hfile]
  simp only [requestIn, Workspace.text, Workspace.locate, hfiles, hfolder]

theorem hasEnd_of_mem {file : String} (h : file ∈ requestFiles w folder) :
    Text.hasEnd requestSuffix file = true := by
  rw [requestFiles, List.mem_mergeSort, List.mem_filter] at h
  exact h.2

/-- A snippet that is written leaves every request as it is. -/
theorem Kept.write {file id : String} {bs : Bytes} (h : Kept folder w w')
    (hslash : ∀ name ∈ requestFiles w folder, '/' ∉ name.toList)
    (hfile : file ∈ requestFiles w folder) (hid : id ∈ Language.ids)
    (hwrite : w'.write? (folder ++ "/" ++ snippetFile file id) bs = some w'') :
    Kept folder w w'' := by
  have hsame := Workspace.sameFolders_of_write? hwrite
  refine ⟨⟨hsame.folder.trans h.same.folder, fun q => (hsame.folders q).trans (h.same.folders q)⟩,
    fun other hother => ?_⟩
  have hending := hasEnd_of_mem hother
  have hne : snippetFile file id ≠ other := snippetFile_ne hending hid
  rw [← h.request other hother, requestIn, requestIn,
    Workspace.text_of_write? (isEntry_snippetFile (hslash file hfile) hid)
      (isEntry_of_hasEnd (hslash other hother) hending) hne hwrite]

theorem RegistryKept.shares (h : RegistryKept config ids folder w registry w') :
    registry.shares u v = config.registry.shares u v := by
  simp only [Registry.shares, h.hasOverride]

/-- A cell that is built for a version leaves the cells of others as they
are. -/
theorem RegistryKept.withCell (h : RegistryKept config ids folder w registry w')
    (hc : config.registry.cell? v = some c)
    (hix : (Source.index config.caching c.source w).1 = .ok ix)
    (hother : ∀ u, config.registry.shares v u = false → Meanwhile config ids folder w u w' →
      Meanwhile config ids folder w u w'') :
    RegistryKept config ids folder w (registry.withCell v ⟨c.source, some ix⟩) w'' := by
  obtain ⟨c', hc', -⟩ := h.served v c hc
  refine ⟨Registry.hasOverride_withCell.trans h.hasOverride,
    (Registry.versions_withCell (by simp [hc'])).trans h.versions, fun u hu => ?_,
    fun u o ho => ?_⟩
  · rw [Registry.cell?_withCell, if_neg, h.unserved u hu]
    intro hshares
    rw [Registry.cell?_of_shares (h.shares ▸ hshares), hc] at hu
    cases hu
  · rw [Registry.cell?_withCell]
    split
    · next hshares =>
      rw [Registry.cell?_of_shares (h.shares ▸ hshares), hc] at ho
      obtain rfl := Option.some.inj ho
      refine ⟨_, rfl, rfl, ?_, ?_⟩
      · rintro _ ⟨⟩
        exact hix
      · rintro ⟨⟩
    · next hshares =>
      obtain ⟨o', ho', hkept⟩ := h.served u o ho
      refine ⟨o', ho', hkept.source, hkept.value, fun hnone => hother u ?_ (hkept.empty hnone)⟩
      rw [Registry.shares_comm, ← h.shares]
      simpa using hshares

/-- A snippet for a version whose cell is built comes before no other cell but
those of other versions. -/
theorem RegistryKept.write {file id text : String}
    (h : RegistryKept config ids folder w registry w') (hask : Asks folder w v)
    (hc : config.registry.cell? v = some c) (hheld : registry.held? v = some ix)
    (hfile : file ∈ requestFiles w folder) (hid : id ∈ ids)
    (hwrite : w'.write? (folder ++ "/" ++ snippetFile file id) (Utf8.encode text.toList) =
      some w'') :
    RegistryKept config ids folder w registry w'' := by
  refine ⟨h.hasOverride, h.versions, h.unserved, fun u o ho => ?_⟩
  obtain ⟨o', ho', hkept⟩ := h.served u o ho
  refine ⟨o', ho', hkept.source, hkept.value, fun hnone => ?_⟩
  refine .write (hkept.empty hnone) hask ?_ hc hfile hid hwrite
  by_contra hshares
  have hsame : registry.cell? v = registry.cell? u :=
    Registry.cell?_of_shares (h.shares.trans (by simpa using hshares))
  rw [Registry.held?, hsame, ho'] at hheld
  simp [hnone] at hheld

/-! ## Resolving in a batch -/

variable {q : HttpRequest} {S W : Type} {build : S → W → Outcome Index × W}

theorem resolveIn_of_no_version {registry : Registry S Index} {e : Fault} {s : W}
    (hv : Resolution.versionOf q = .error e) :
    Resolution.resolveIn build registry q s = (Noted.ofOutcome (.error e), registry, s) := by
  unfold Resolution.resolveIn
  rw [hv]

theorem resolveIn_of_no_cell {registry : Registry S Index} {s : W}
    (hv : Resolution.versionOf q = .ok v) (hc : registry.cell? v = none) :
    Resolution.resolveIn build registry q s =
      (Noted.ofOutcome (.error (.version v registry.versions)), registry, s) := by
  have hget : registry.get build v s = (.error (.version v registry.versions), registry, s) :=
    Registry.get_of_no_cell hc
  unfold Resolution.resolveIn
  rw [hv]
  dsimp only
  rw [hget]

theorem resolveIn_of_cell {registry : Registry S Index} {c c' : Cell S Index} {s s' : W}
    (hv : Resolution.versionOf q = .ok v) (hc : registry.cell? v = some c)
    (hget : c.get build s = (.ok ix, c', s')) :
    Resolution.resolveIn build registry q s =
      (Resolution.resolve ix q, registry.withCell v c', s') := by
  have hserved : registry.get build v s = ((c.get build s).1,
      registry.withCell v (c.get build s).2.1, (c.get build s).2.2) := Registry.get_of_cell hc
  rw [hget] at hserved
  unfold Resolution.resolveIn
  rw [hv]
  dsimp only
  rw [hserved]

theorem resolved_eq (config : Config) (q : HttpRequest) (w : Workspace) :
    (Command.resolved config q w).1 =
      (Resolution.resolveIn (Source.index config.caching) config.registry q w).1.outcome := by
  unfold Command.resolved
  generalize Resolution.resolveIn (Source.index config.caching) config.registry q w = after
  rfl

variable (config folder w) in
/-- A version is served by a cell that is built. -/
def Serving (registry : Registry String Index) : Prop :=
  ∃ v c ix, Asks folder w v ∧ config.registry.cell? v = some c ∧ registry.held? v = some ix

/-- **A cell of a batch gives the index that its source gives at first**: it
holds it from an earlier request, or it is built with it now. -/
theorem CellKept.get {c' : Cell String Index} (hcell : CellKept config ids folder w w' v c c')
    (hkept : Kept folder w w') (hask : Asks folder w v) (hc : config.registry.cell? v = some c)
    (hix : ∀ s, Meanwhile config ids folder w v s →
      (Source.index config.caching c.source s).1 = .ok ix) :
    ∃ s, c'.get (Source.index config.caching) w' = (.ok ix, ⟨c.source, some ix⟩, s) ∧
      Kept folder w s ∧ s.files = w'.files ∧
        ∀ u, config.registry.shares v u = false → Meanwhile config ids folder w u w' →
          Meanwhile config ids folder w u s := by
  cases hvalue : c'.value with
  | some ix' =>
    obtain rfl : ix = ix' := Except.ok.inj ((hix w .start).symm.trans (hcell.value ix' hvalue))
    obtain ⟨source, value⟩ := c'
    obtain rfl : value = some ix := hvalue
    obtain rfl : source = c.source := hcell.source
    exact ⟨w', Cell.get_of_value rfl, hkept, rfl, fun u _ h => h⟩
  | none =>
    have hget : c'.get (Source.index config.caching) w' =
        (.ok ix, ⟨c.source, some ix⟩, (Source.index config.caching c.source w').2) := by
      rw [Cell.get_of_empty hvalue, hcell.source, hix w' (hcell.empty hvalue)]
      rfl
    exact ⟨_, hget, hkept.load _ _, (index_files _ _ _).1, fun u hu h => .load h hask hu hc⟩

/-- **A request resolves in a batch as it does by itself.** The index that
serves it was loaded before, or it loads now. -/
theorem resolveIn_kept (hload : Loads config ids folder w)
    (hreg : RegistryKept config ids folder w registry w') (hkept : Kept folder w w')
    (hask : ∀ v, Resolution.versionOf q = .ok v → Asks folder w v) :
    let after := Resolution.resolveIn (Source.index config.caching) registry q w'
    after.1.outcome = (Command.resolved config q w).1 ∧
      RegistryKept config ids folder w after.2.1 after.2.2 ∧ Kept folder w after.2.2 ∧
      after.2.2.files = w'.files ∧
      ∀ r, after.1.outcome = .ok r → Serving config folder w after.2.1 := by
  intro after
  have hresolved := resolved_eq config q w
  cases hv : Resolution.versionOf q with
  | error e =>
    have hafter : after = (Noted.ofOutcome (.error e), registry, w') := resolveIn_of_no_version hv
    rw [hresolved, resolveIn_of_no_version hv, hafter]
    refine ⟨rfl, hreg, hkept, rfl, fun r hr => ?_⟩
    rw [Noted.outcome_ofOutcome] at hr
    cases hr
  | ok v =>
    cases hc : config.registry.cell? v with
    | none =>
      have hafter : after =
          (Noted.ofOutcome (.error (.version v registry.versions)), registry, w') :=
        resolveIn_of_no_cell hv (hreg.unserved v hc)
      rw [hresolved, resolveIn_of_no_cell hv hc, hafter, hreg.versions]
      refine ⟨rfl, hreg, hkept, rfl, fun r hr => ?_⟩
      rw [Noted.outcome_ofOutcome] at hr
      cases hr
    | some c =>
      obtain ⟨ix, hix⟩ := hload v c (hask v hv) hc
      obtain ⟨c', hc', hcell⟩ := hreg.served v c hc
      -- by itself the request finds the cell empty
      have hfirst := hix w .start
      have hget : c.get (Source.index config.caching) w =
          (.ok ix, ⟨c.source, some ix⟩, (Source.index config.caching c.source w).2) := by
        rw [Cell.get_of_empty (value_of_cell? hc), hfirst]
        rfl
      obtain ⟨s, hget', hs, hfiles, hother⟩ := hcell.get hkept (hask v hv) hc hix
      have hafter : after =
          (Resolution.resolve ix q, registry.withCell v ⟨c.source, some ix⟩, s) :=
        resolveIn_of_cell hv hc' hget'
      rw [hresolved, resolveIn_of_cell hv hc hget, hafter]
      refine ⟨rfl, hreg.withCell hc hfirst hother, hs, hfiles, fun r _ => ?_⟩
      refine ⟨v, c, ix, hask v hv, hc, ?_⟩
      rw [Registry.held?_withCell, if_pos]
      simp [Registry.shares, Text.sameLetters]

/-! ## The snippets of a request -/

theorem exists_find {name : String} (h : name ∈ Language.ids) :
    ∃ l, Language.find name = .ok l := by
  have hall : ∀ n ∈ Language.ids, (Language.find n).toOption.isSome = true := by decide
  have hsome := hall name h
  cases hl : Language.find name with
  | ok l => exact ⟨l, rfl⟩
  | error e =>
    rw [hl] at hsome
    cases hsome

theorem generateMany_eq (hids : ∀ id ∈ ids, id ∈ Language.ids)
    (resolved : Outcome ResolvedRequest) : Snippet.generateMany resolved ids = (do
      let r ← resolved
      let texts ← Outcome.mapAll (Snippet.generateIn r) ids
      pure (Entries.ofPairs (ids.zip texts))) := by
  have hfind : ∃ ls, Outcome.mapAll Language.find ids = .ok ls := by
    clear resolved
    induction ids with
    | nil => exact ⟨[], rfl⟩
    | cons id ids ih =>
      obtain ⟨l, hl⟩ := exists_find (hids id List.mem_cons_self)
      obtain ⟨ls, hls⟩ := ih fun i hi => hids i (List.mem_cons_of_mem _ hi)
      refine ⟨l :: ls, ?_⟩
      rw [Outcome.mapAll, hl, hls]
      simp only [bind, Except.bind, pure, Except.pure]
  obtain ⟨ls, hls⟩ := hfind
  rw [Snippet.generateMany, hls]
  rfl

/-- **The snippets of a request by itself** are in the languages asked for, and
each is what is generated for the request as it resolves. -/
theorem generateIn_of_alone {file id text : String} {texts : List (String × String)}
    (h : alone config ids folder w file = .ok texts) (ht : (id, text) ∈ texts) :
    id ∈ ids ∧ ∃ q r, requestIn folder w file = .ok q ∧ (Command.resolved config q w).1 = .ok r ∧
      Snippet.generateIn r id = .ok text := by
  obtain ⟨q, hq, h⟩ := Outcome.bind_eq_ok.1 h
  obtain ⟨r, hr, h⟩ := Outcome.bind_eq_ok.1 h
  obtain ⟨found, hfound, h⟩ := Outcome.bind_eq_ok.1 h
  obtain rfl := Outcome.pure_eq_ok.1 h
  have hzip : (id, text) ∈ ids.zip found := (Entries.mem_of_mem_putAll ht).resolve_left (by simp)
  have hall := Outcome.forall₂_of_mapAll hfound
  refine ⟨(List.of_mem_zip hzip).1, q, r, hq, hr, ?_⟩
  exact List.forall₂_iff_zip.1 hall |>.2 hzip

/-! ## What can be written -/

/-- A snippet can be written: it has octets, and its file can be made. -/
def Writable (folder : String) (w : Workspace) (name text : String) : Prop :=
  Utf8.isEncodable text = true ∧ w.CanWrite (folder ++ "/" ++ name)

/-! ## The state after some requests -/

variable (folder w) in
/-- The octets that were last written at a place, given everything that was
written. -/
def writtenAt? (written : List (String × String)) (place : Place) : Option Bytes :=
  written.reverse.findSome? fun t =>
    if w.locate (folder ++ "/" ++ t.1) = some place then some (Utf8.encode t.2.toList) else none

variable (config ids folder w) in
/-- **What a batch keeps to** while it runs: the requests, the indexes and what
the console takes are those it began with, and its files are those it began
with and what it has written. -/
structure Sound (console : Console) (p : Progress) : Prop where
  console : p.console.Alike console
  kept : Kept folder w p.workspace
  registry : RegistryKept config ids folder w p.registry p.workspace
  contents : ∀ place, p.workspace.files.read? place =
    (writtenAt? folder w p.written place).or (w.files.read? place)

variable (config w) in
/-- A batch before its first file. -/
def start (console : Console) : Progress :=
  { registry := config.registry, workspace := w, console := console }

variable {console : Console} {p : Progress} {file : String}

theorem running_start : (start config w console).crashed = false :=
  rfl

theorem sound_start : Sound config ids folder w console (start config w console) :=
  ⟨.refl console, kept_self, registryKept_self, fun _ => rfl⟩

/-- **The snippets of a request in a batch are those it has by itself.** -/
theorem snippets_kept (hload : Loads config ids folder w) (hids : ∀ id ∈ ids, id ∈ Language.ids)
    (hfile : file ∈ requestFiles w folder) (hp : Sound config ids folder w console p) :
    ∃ registry w', snippets config.caching ids
        (request file (p.workspace.text (folder ++ "/" ++ file))) p =
          (alone config ids folder w file, { p with registry := registry, workspace := w' }) ∧
      Sound config ids folder w console { p with registry := registry, workspace := w' } ∧
      ∀ texts, alone config ids folder w file = .ok texts → Serving config folder w registry := by
  have hrequest :
      request file (p.workspace.text (folder ++ "/" ++ file)) = requestIn folder w file :=
    hp.kept.request file hfile
  rw [hrequest]
  cases hq : requestIn folder w file with
  | error e =>
    have halone : alone config ids folder w file = .error e := by
      rw [alone, hq]
      rfl
    rw [halone]
    refine ⟨p.registry, p.workspace, rfl, hp, ?_⟩
    rintro texts ⟨⟩
  | ok q =>
    have hask : ∀ v, Resolution.versionOf q = .ok v → Asks folder w v :=
      fun v hv => ⟨file, hfile, q, hq, hv⟩
    have hresolve := resolveIn_kept hload hp.registry hp.kept hask
    have halone : alone config ids folder w file =
        Snippet.generateMany (Command.resolved config q w).1 ids := by
      rw [generateMany_eq hids, alone, hq]
      simp only [bind, Except.bind]
    rw [halone, snippets]
    -- what resolving comes to is known, and it is not computed here
    generalize Resolution.resolveIn (Source.index config.caching) p.registry q p.workspace = after
      at hresolve ⊢
    obtain ⟨result, registry, w'⟩ := after
    obtain ⟨houtcome, hreg, hkept, hfiles, hserving⟩ := hresolve
    have houtcome : result.outcome = (Command.resolved config q w).1 := houtcome
    have hfiles : w'.files = p.workspace.files := hfiles
    refine ⟨registry, w', ?_, ⟨hp.console, hkept, hreg, fun place => ?_⟩, fun texts htexts => ?_⟩
    · show (Snippet.generateMany result.outcome ids, _) = _
      rw [houtcome]
    · show w'.files.read? place = _
      rw [hfiles]
      exact hp.contents place
    · rw [generateMany_eq hids] at htexts
      obtain ⟨r, hr, -⟩ := Outcome.bind_eq_ok.1 htexts
      exact hserving r (houtcome.trans hr)

/-! ## Writing the snippets of a request -/

/-- The snippets of a request file as the files they are written to. -/
def outputs (file : String) (texts : List (String × String)) : List (String × String) :=
  texts.map fun t => (snippetFile file t.1, t.2)

/-- Snippets written in turn. -/
def writeAll (folder : String) (p : Progress) (outs : List (String × String)) : Progress :=
  outs.foldl (fun p t => writeSnippet folder p t.1 t.2) p

theorem writtenAt?_append {written : List (String × String)} {t : String × String} (place : Place) :
    writtenAt? folder w (written ++ [t]) place =
      (if w.locate (folder ++ "/" ++ t.1) = some place then some (Utf8.encode t.2.toList)
        else none).or
        (writtenAt? folder w written place) := by
  rw [writtenAt?, List.reverse_append, List.reverse_singleton, List.singleton_append,
    List.findSome?_cons, writtenAt?]
  split
  · next hsome => simp [hsome]
  · next hnone => simp [hnone]

theorem crashed_writeAll {outs : List (String × String)} (h : p.crashed = true) :
    (writeAll folder p outs).crashed = true := by
  induction outs generalizing p with
  | nil => exact h
  | cons t outs ih =>
    refine ih ?_
    show (writeSnippet folder p t.1 t.2).crashed = true
    rw [writeSnippet, if_pos h, h]

theorem writeSnippet_of_write? {name text : String} (h : p.crashed = false)
    (htext : Utf8.isEncodable text = true)
    (hwrite : p.workspace.write? (folder ++ "/" ++ name) (Utf8.encode text.toList) = some w') :
    writeSnippet folder p name text =
      { p with workspace := w', written := p.written ++ [(name, text)] } := by
  simp only [writeSnippet, if_neg (show ¬ p.crashed = true by simp [h]), if_pos htext, hwrite]

/-- A batch crashes when a snippet cannot be written, and not before. -/
theorem crashed_writeSnippet_iff {name text : String} (h : p.crashed = false) :
    (writeSnippet folder p name text).crashed = false ↔
      Writable folder p.workspace name text := by
  have hiff : (p.workspace.write? (folder ++ "/" ++ name) (Utf8.encode text.toList)).isSome = true ↔
      p.workspace.CanWrite (folder ++ "/" ++ name) := Workspace.isSome_write?_iff
  rw [Writable, ← hiff]
  cases htext : Utf8.isEncodable text with
  | false => simp [writeSnippet, h, htext]
  | true =>
    cases hwrite : p.workspace.write? (folder ++ "/" ++ name) (Utf8.encode text.toList) with
    | none => simp [writeSnippet, h, htext, hwrite]
    | some w' =>
      rw [writeSnippet_of_write? h htext hwrite]
      simp [h]

/-- What one snippet changes. -/
theorem writeSnippet_sound {text id : String} (hids : ∀ id ∈ ids, id ∈ Language.ids)
    (hslash : ∀ name ∈ requestFiles w folder, '/' ∉ name.toList)
    (hfile : file ∈ requestFiles w folder) (hid : id ∈ ids)
    (hp : Sound config ids folder w console p)
    (hserving : Serving config folder w p.registry) (hcrashed : p.crashed = false)
    (hwritable : Writable folder w (snippetFile file id) text) :
    ∃ w', writeSnippet folder p (snippetFile file id) text =
        { p with workspace := w', written := p.written ++ [(snippetFile file id, text)] } ∧
      Sound config ids folder w console
        { p with workspace := w', written := p.written ++ [(snippetFile file id, text)] } := by
  obtain ⟨htext, hcan⟩ := hwritable
  obtain ⟨v, c, ix, hask, hc, hheld⟩ := hserving
  have hcan' := hp.kept.same.canWrite.2 hcan
  obtain ⟨w', hwrite⟩ := Workspace.exists_write? hcan' (Utf8.encode text.toList)
  refine ⟨w', writeSnippet_of_write? hcrashed htext hwrite, hp.console, ?_, ?_, ?_⟩
  · exact hp.kept.write hslash hfile (hids id hid) hwrite
  · exact hp.registry.write hask hc hheld hfile hid hwrite
  · intro place
    obtain ⟨q, files, hq, hfiles, rfl⟩ := Workspace.write?_eq_some.1 hwrite
    show files.read? place = _
    rw [Files.read?_of_write? hfiles, hp.contents, writtenAt?_append,
      ← hp.kept.same.locate, hq]
    by_cases hplace : place = q
    · subst hplace
      simp
    · have hne : some q ≠ some place := fun h => hplace (Option.some.inj h).symm
      rw [if_neg hplace, if_neg hne, Option.none_or]

/-- **All snippets of a request are written**, when each can be. -/
theorem writeAll_sound {texts : List (String × String)} (hids : ∀ id ∈ ids, id ∈ Language.ids)
    (hslash : ∀ name ∈ requestFiles w folder, '/' ∉ name.toList)
    (hfile : file ∈ requestFiles w folder) (htexts : ∀ t ∈ texts, t.1 ∈ ids)
    (hp : Sound config ids folder w console p) (hserving : Serving config folder w p.registry)
    (hcrashed : p.crashed = false)
    (hwritable : ∀ t ∈ texts, Writable folder w (snippetFile file t.1) t.2) :
    ∃ w', writeAll folder p (outputs file texts) =
        { p with workspace := w', written := p.written ++ outputs file texts } ∧
      Sound config ids folder w console
        { p with workspace := w', written := p.written ++ outputs file texts } := by
  induction texts generalizing p with
  | nil => exact ⟨p.workspace, by simp [outputs, writeAll], by simpa [outputs] using hp⟩
  | cons t texts ih =>
    obtain ⟨w', hstep, hsound⟩ := writeSnippet_sound hids hslash hfile
      (htexts t List.mem_cons_self) hp hserving hcrashed (hwritable t List.mem_cons_self)
    obtain ⟨w'', hrest, hsound'⟩ := ih (fun t ht => htexts t (List.mem_cons_of_mem _ ht)) hsound
      hserving hcrashed fun t ht => hwritable t (List.mem_cons_of_mem _ ht)
    have hout : p.written ++ outputs file (t :: texts) =
        p.written ++ [(snippetFile file t.1, t.2)] ++ outputs file texts := by
      simp [outputs]
    refine ⟨w'', ?_, hout ▸ hsound'⟩
    rw [hout, ← hrest, ← hstep]
    rfl

theorem running_of_writeAll {outs : List (String × String)}
    (h : (writeAll folder p outs).crashed = false) : p.crashed = false := by
  by_contra hp
  rw [crashed_writeAll (by simpa using hp)] at h
  cases h

/-- Snippets that are all written could each be written. -/
theorem writable_of_writeAll {outs : List (String × String)} (h : p.workspace.SameFolders w)
    (hcrashed : (writeAll folder p outs).crashed = false) :
    ∀ t ∈ outs, Writable folder w t.1 t.2 := by
  induction outs generalizing p with
  | nil => simp
  | cons t outs ih =>
    have hrest : (writeAll folder (writeSnippet folder p t.1 t.2) outs).crashed = false := hcrashed
    obtain ⟨htext, hcan⟩ := (crashed_writeSnippet_iff (running_of_writeAll hcrashed)).1
      (running_of_writeAll hrest)
    obtain ⟨w', hwrite⟩ := Workspace.exists_write? hcan (Utf8.encode t.2.toList)
    rw [writeSnippet_of_write? (running_of_writeAll hcrashed) htext hwrite] at hrest
    have hsame := Workspace.sameFolders_of_write? hwrite
    intro t' ht'
    rcases List.mem_cons.1 ht' with rfl | ht'
    · exact ⟨htext, h.canWrite.1 hcan⟩
    · refine ih ⟨hsame.folder.trans h.folder, ?_⟩ hrest t' ht'
      exact fun q => (hsame.folders q).trans (h.folders q)

/-! ## One file -/

theorem run_eq (files : List String) :
    run config ids folder files console w =
      files.foldl (step config.caching ids folder) (start config w console) :=
  rfl

/-- What a step does with the snippets of its file, or with the fault in their
place. -/
def settle (folder file : String) (p : Progress) : Outcome (List (String × String)) → Progress
  | .ok texts => writeAll folder p (outputs file texts)
  | .error (.defect _) => { p with crashed := true }
  | .error e => report p file e

theorem settle_ok (texts : List (String × String)) :
    settle folder file p (.ok texts) = writeAll folder p (outputs file texts) :=
  rfl

theorem settle_defect (kind : Defect) :
    settle folder file p (.error (.defect kind)) = { p with crashed := true } :=
  rfl

theorem settle_error {e : Fault} (h : ∀ kind, e ≠ .defect kind) :
    settle folder file p (.error e) = report p file e := by
  cases e with
  | defect kind => exact (h kind rfl).elim
  | _ => rfl

theorem step_eq {p' : Progress} {result : Outcome (List (String × String))}
    (h : p.crashed = false)
    (hsnippets : snippets config.caching ids
      (request file (p.workspace.text (folder ++ "/" ++ file))) p = (result, p')) :
    step config.caching ids folder p file = settle folder file p' result := by
  rw [step, if_neg (by simp [h]), hsnippets]
  cases result with
  | ok texts => simp only [settle, writeAll, outputs, List.foldl_map]
  | error e => cases e <;> rfl

section

-- what a request gives by itself is not computed from here on
attribute [local irreducible] alone

variable (config ids folder w) in
/-- What a request file adds to what was written. -/
def writtenBy (file : String) : List (String × String) :=
  match alone config ids folder w file with
  | .ok texts => outputs file texts
  | .error _ => []

variable (config ids folder w) in
/-- What a request file adds to the failures. -/
def failuresBy (file : String) : List (String × Fault) :=
  match alone config ids folder w file with
  | .ok _ => []
  | .error e => [(file, e)]

/-- A request file that does no harm by itself: it fails with a fault that is
no defect and can be reported, or all its snippets can be written. -/
def Harmless (config : Config) (ids : List String) (folder : String) (w : Workspace)
    (console : Console) (file : String) : Prop :=
  match alone config ids folder w file with
  | .ok texts => ∀ t ∈ texts, Writable folder w (snippetFile file t.1) t.2
  | .error e => (∀ kind, e ≠ .defect kind) ∧
    (console.error (file ++ ": " ++ e.message)).broken = false

/-- A file that does not end the batch is harmless by itself. -/
theorem harmless_of_step (hload : Loads config ids folder w)
    (hids : ∀ id ∈ ids, id ∈ Language.ids) (hfile : file ∈ requestFiles w folder)
    (hp : Sound config ids folder w console p) (hcrashed : p.crashed = false)
    (h : (step config.caching ids folder p file).crashed = false) :
    Harmless config ids folder w console file := by
  obtain ⟨registry, w', hsnippets, hsound, -⟩ := snippets_kept hload hids hfile hp
  rw [step_eq hcrashed hsnippets] at h
  unfold Harmless
  cases halone : alone config ids folder w file with
  | ok texts =>
    rw [halone, settle_ok] at h
    intro t ht
    have hmem : (snippetFile file t.1, t.2) ∈ outputs file texts := List.mem_map_of_mem ht
    exact writable_of_writeAll hsound.kept.same h (snippetFile file t.1, t.2) hmem
  | error e =>
    have hkind : ∀ kind, e ≠ .defect kind := by
      rintro kind rfl
      rw [halone, settle_defect] at h
      cases h
    rw [halone, settle_error hkind] at h
    exact ⟨hkind, hsound.console.broken_error.1 h⟩

/-- **One file of a batch** adds what it gives by itself. -/
theorem step_sound (hload : Loads config ids folder w) (hids : ∀ id ∈ ids, id ∈ Language.ids)
    (hslash : ∀ name ∈ requestFiles w folder, '/' ∉ name.toList)
    (hfile : file ∈ requestFiles w folder) (hharmless : Harmless config ids folder w console file)
    (hp : Sound config ids folder w console p) (hcrashed : p.crashed = false) :
    Sound config ids folder w console (step config.caching ids folder p file) ∧
      (step config.caching ids folder p file).crashed = false ∧
      (step config.caching ids folder p file).written =
        p.written ++ writtenBy config ids folder w file ∧
      (step config.caching ids folder p file).failures =
        p.failures ++ failuresBy config ids folder w file := by
  obtain ⟨registry, w', hsnippets, hsound, hserving⟩ := snippets_kept hload hids hfile hp
  rw [step_eq hcrashed hsnippets]
  unfold writtenBy failuresBy
  unfold Harmless at hharmless
  cases halone : alone config ids folder w file with
  | ok texts =>
    rw [halone] at hharmless
    obtain ⟨w'', hwritten, hafter⟩ := writeAll_sound hids hslash hfile
      (fun t ht => (generateIn_of_alone halone ht).1) hsound (hserving texts halone) hcrashed
      hharmless
    rw [settle_ok, hwritten]
    exact ⟨hafter, hcrashed, rfl, (List.append_nil _).symm⟩
  | error e =>
    rw [halone] at hharmless
    obtain ⟨hkind, hreport⟩ := hharmless
    have hreport := hsound.console.broken_error.2 hreport
    rw [settle_error hkind]
    refine ⟨⟨?_, hsound.kept, hsound.registry, hsound.contents⟩, hreport, ?_, rfl⟩
    · exact (Console.alike_remark hreport).trans hsound.console
    · exact (List.append_nil _).symm

/-- **All files of a batch.** The induction is on the files to come. -/
theorem foldl_step_sound (hload : Loads config ids folder w)
    (hids : ∀ id ∈ ids, id ∈ Language.ids)
    (hslash : ∀ name ∈ requestFiles w folder, '/' ∉ name.toList) {files : List String}
    (hfiles : ∀ file ∈ files,
      file ∈ requestFiles w folder ∧ Harmless config ids folder w console file)
    (hp : Sound config ids folder w console p) (hcrashed : p.crashed = false) :
    let after := files.foldl (step config.caching ids folder) p
    Sound config ids folder w console after ∧ after.crashed = false ∧
      after.written = p.written ++ files.flatMap (writtenBy config ids folder w) ∧
      after.failures = p.failures ++ files.flatMap (failuresBy config ids folder w) := by
  induction files generalizing p with
  | nil => simp [hp, hcrashed]
  | cons file files ih =>
    obtain ⟨hfile, hharmless⟩ := hfiles file List.mem_cons_self
    obtain ⟨hsound, hrunning, hwritten, hfailures⟩ :=
      step_sound hload hids hslash hfile hharmless hp hcrashed
    have hrest := ih (fun f hf => hfiles f (List.mem_cons_of_mem _ hf)) hsound hrunning
    rw [hwritten, hfailures, List.append_assoc, List.append_assoc] at hrest
    simpa only [List.foldl_cons, List.flatMap_cons] using hrest

/-- A batch of a request file alone comes to its end. -/
def Passes (config : Config) (ids : List String) (folder : String) (w : Workspace)
    (console : Console) (file : String) : Prop :=
  (run config ids folder [file] console w).crashed = false

theorem crashed_foldl_step {files : List String} (h : p.crashed = true) :
    (files.foldl (step config.caching ids folder) p).crashed = true := by
  induction files with
  | nil => exact h
  | cons file files ih => rwa [List.foldl_cons, step, if_pos h]

/-- **The files of a batch that comes to its end are harmless.** -/
theorem harmless_of_foldl_step (hload : Loads config ids folder w)
    (hids : ∀ id ∈ ids, id ∈ Language.ids)
    (hslash : ∀ name ∈ requestFiles w folder, '/' ∉ name.toList) {files : List String}
    (hfiles : ∀ file ∈ files, file ∈ requestFiles w folder)
    (hp : Sound config ids folder w console p) (hcrashed : p.crashed = false)
    (h : (files.foldl (step config.caching ids folder) p).crashed = false) :
    ∀ file ∈ files, Harmless config ids folder w console file := by
  induction files generalizing p with
  | nil => simp
  | cons file files ih =>
    have hfile := hfiles file List.mem_cons_self
    have hstep : (step config.caching ids folder p file).crashed = false := by
      by_contra hstep
      rw [List.foldl_cons, crashed_foldl_step (by simpa using hstep)] at h
      cases h
    have hharmless := harmless_of_step hload hids hfile hp hcrashed hstep
    obtain ⟨hsound, -⟩ := step_sound hload hids hslash hfile hharmless hp hcrashed
    have hrest := ih (fun f hf => hfiles f (List.mem_cons_of_mem _ hf)) hsound hstep h
    exact List.forall_mem_cons.2 ⟨hharmless, hrest⟩

/-- **A batch comes to its end exactly when its files are harmless.** -/
theorem running_run_iff (hload : Loads config ids folder w)
    (hids : ∀ id ∈ ids, id ∈ Language.ids)
    (hslash : ∀ name ∈ requestFiles w folder, '/' ∉ name.toList) {files : List String}
    (hfiles : ∀ file ∈ files, file ∈ requestFiles w folder) :
    (run config ids folder files console w).crashed = false ↔
      ∀ file ∈ files, Harmless config ids folder w console file := by
  rw [run_eq]
  constructor
  · exact harmless_of_foldl_step hload hids hslash hfiles sound_start running_start
  · intro hharmless
    obtain ⟨-, hrunning, -⟩ := foldl_step_sound hload hids hslash
      (fun file hfile => ⟨hfiles file hfile, hharmless file hfile⟩) sound_start running_start
    exact hrunning

/-- A request file is harmless exactly when a batch of it alone comes to its
end. -/
theorem harmless_iff_passes (hload : Loads config ids folder w)
    (hids : ∀ id ∈ ids, id ∈ Language.ids)
    (hslash : ∀ name ∈ requestFiles w folder, '/' ∉ name.toList)
    (hfile : file ∈ requestFiles w folder) :
    Harmless config ids folder w console file ↔ Passes config ids folder w console file := by
  rw [Passes, running_run_iff hload hids hslash (by simpa using hfile), List.forall_mem_singleton]

/-! ## The whole batch -/

/-- A text is written at a place exactly when a request gives it by itself. -/
theorem mem_written_iff {place : Place} {text : String} :
    (∃ t ∈ (requestFiles w folder).flatMap (writtenBy config ids folder w),
      w.locate (folder ++ "/" ++ t.1) = some place ∧ t.2 = text) ↔
      Wanted config ids folder w place text := by
  constructor
  · rintro ⟨t, ht, hplace, rfl⟩
    obtain ⟨file, hfile, ht⟩ := List.mem_flatMap.1 ht
    unfold writtenBy at ht
    split at ht
    · next texts halone =>
      obtain ⟨t', ht', rfl⟩ := List.mem_map.1 ht
      exact ⟨file, hfile, texts, t'.1, halone, ht', hplace⟩
    · simp at ht
  · rintro ⟨file, hfile, texts, id, halone, ht, hplace⟩
    refine ⟨(snippetFile file id, text), List.mem_flatMap.2 ⟨file, hfile, ?_⟩, hplace, rfl⟩
    rw [writtenBy, halone]
    have hmem : (snippetFile file (id, text).1, (id, text).2) ∈ outputs file texts :=
      List.mem_map_of_mem ht
    exact hmem

/-- **Two texts that are wanted at one place are one text.** -/
theorem Wanted.unique {place : Place} {text text' : String}
    (hids : ∀ id ∈ ids, id ∈ Language.ids)
    (hslash : ∀ name ∈ requestFiles w folder, '/' ∉ name.toList)
    (h : Wanted config ids folder w place text) (h' : Wanted config ids folder w place text') :
    text = text' := by
  obtain ⟨file, hfile, texts, id, halone, ht, hplace⟩ := h
  obtain ⟨file', hfile', texts', id', halone', ht', hplace'⟩ := h'
  obtain ⟨hid, q, r, hq, hr, htext⟩ := generateIn_of_alone halone ht
  obtain ⟨hid', q', r', hq', hr', htext'⟩ := generateIn_of_alone halone' ht'
  have hname := Workspace.eq_of_locate_eq
    (isEntry_snippetFile (hslash file hfile) (hids id hid))
    (isEntry_snippetFile (hslash file' hfile') (hids id' hid')) hplace hplace'
  obtain ⟨rfl, rfl⟩ := snippetFile_inj (hasEnd_of_mem hfile) (hasEnd_of_mem hfile')
    (hids id hid) (hids id' hid') hname
  obtain rfl := Except.ok.inj (hq.symm.trans hq')
  obtain rfl := Except.ok.inj (hr.symm.trans hr')
  exact Except.ok.inj (htext.symm.trans htext')

theorem writtenAt?_of_wanted {place : Place} {text : String}
    (hids : ∀ id ∈ ids, id ∈ Language.ids)
    (hslash : ∀ name ∈ requestFiles w folder, '/' ∉ name.toList)
    (h : Wanted config ids folder w place text) :
    writtenAt? folder w ((requestFiles w folder).flatMap (writtenBy config ids folder w)) place =
      some (Utf8.encode text.toList) := by
  obtain ⟨t, ht, hplace, rfl⟩ := mem_written_iff.2 h
  cases hfound : writtenAt? folder w
      ((requestFiles w folder).flatMap (writtenBy config ids folder w)) place with
  | none =>
    rw [writtenAt?, List.findSome?_eq_none_iff] at hfound
    have hnone := hfound t (by simpa using ht)
    simp [hplace] at hnone
  | some bs =>
    -- whatever was written there last is wanted there
    obtain ⟨t', ht', hbs⟩ := List.exists_of_findSome?_eq_some hfound
    split at hbs
    · next hplace' =>
      have hwanted := mem_written_iff.1 ⟨t', by simpa using ht', hplace', rfl⟩
      rw [h.unique hids hslash hwanted, ← hbs]
    · cases hbs

theorem writtenAt?_of_not_wanted {place : Place}
    (h : ∀ text, ¬ Wanted config ids folder w place text) :
    writtenAt? folder w ((requestFiles w folder).flatMap (writtenBy config ids folder w)) place =
      none := by
  rw [writtenAt?, List.findSome?_eq_none_iff]
  intro t ht
  rw [if_neg]
  intro hplace
  exact h t.2 (mem_written_iff.1 ⟨t, by simpa using ht, hplace, rfl⟩)

theorem firstFault?_eq : firstFault? config ids folder w =
    ((requestFiles w folder).flatMap (failuresBy config ids folder w)).head?.map Prod.snd := by
  rw [firstFault?]
  generalize requestFiles w folder = files
  induction files with
  | nil => rfl
  | cons file files ih =>
    rw [List.findSome?_cons, List.flatMap_cons, failuresBy]
    cases alone config ids folder w file with
    | ok texts => simpa using ih
    | error e => rfl

/-- Languages that are found are those there are. -/
theorem mem_ids_of_languageIds {languages : Option String}
    (h : languageIds config languages = .ok ids) : ∀ id ∈ ids, id ∈ Language.ids := by
  intro id hid
  obtain ⟨name, -, hname⟩ := Outcome.exists_of_forall₂ (Outcome.forall₂_of_mapAll h) hid
  obtain ⟨l, hl, rfl⟩ := Outcome.map_eq_ok.1 hname
  unfold Language.find at hl
  dsimp only at hl
  split at hl
  · next found hfound =>
    obtain rfl := Except.ok.inj hl
    exact List.mem_map_of_mem (List.mem_of_find?_eq_some hfound)
  · cases hl

/-! ## What is said at the end -/

/-- A console takes what a batch says beside its failures: the sources it goes
by, that there are no requests, and how many there were. -/
structure Heard (config : Config) (folder : String) (c : Console) : Prop where
  announced : (Command.announce config c).broken = false
  noFiles : (c.warning (Batch.noFiles folder)).broken = false
  written : ∀ snippets requests,
    ((Command.announce config c).success (Batch.written snippets requests)).broken = false
  withErrors : ∀ requests,
    ((Command.announce config c).info (Batch.withErrors requests)).broken = false

/-- The sources are for the curious only. -/
theorem announce_of_not_verbose {c : Console} (h : c.style.verbose = false) :
    Command.announce config c = c := by
  have hdebug : ∀ text, c.debug text = c := fun text => by
    rw [Console.debug, h, if_neg Bool.false_ne_true]
  unfold Command.announce
  split <;> simp only [hdebug]

theorem isPlain_announce {c : Console} (h : c.IsPlain) : (Command.announce config c).IsPlain := by
  unfold Command.announce
  split
  · exact h.debug.debug
  · exact h.debug

/-- Without colours everything is heard. -/
theorem heard_of_isPlain {c : Console} (h : c.IsPlain) : Heard config folder c where
  announced := (isPlain_announce h).broken
  noFiles := h.remark.broken
  written _ _ := (isPlain_announce h).success.broken
  withErrors _ := (isPlain_announce h).info.broken

/-- A batch that comes to its end leaves its workspace, and ends with the code
of its first failure. -/
theorem finish_of_running (count : Nat) {c : Console} (hheard : Heard config folder c)
    (hconsole : p.console.Alike (Command.announce config c)) (h : p.crashed = false) :
    (finish count p).workspace = p.workspace ∧
      (finish count p).exit = ((p.failures.head?.map Prod.snd).map Fault.exitCode).getD 0 := by
  have hwritten : (p.console.success (written p.written.length count)).broken = false :=
    hconsole.broken_success.2 (hheard.written _ _)
  have hinfo := ((Console.alike_success hwritten).trans hconsole).broken_info.2
    (hheard.withErrors count)
  unfold finish
  rw [if_neg (by simp [h])]
  cases p.failures with
  | nil =>
    show (Ended.close _ _ _).workspace = _ ∧ (Ended.close _ _ _).exit = _
    rw [Ended.close_of_whole hwritten]
    exact ⟨rfl, rfl⟩
  | cons f failures =>
    show (Ended.close _ _ _).workspace = _ ∧ (Ended.close _ _ _).exit = _
    rw [Ended.close_of_whole hinfo]
    exact ⟨rfl, rfl⟩

theorem exit_finish_of_crashed {count : Nat} (h : p.crashed = true) :
    (finish count p).exit = 1 := by
  rw [finish, if_pos h]
  rfl

/-- **The run of a batch** in which every request file comes to its end by
itself. -/
theorem run_sound (hload : Loads config ids folder w) (hids : ∀ id ∈ ids, id ∈ Language.ids)
    (hslash : ∀ name ∈ requestFiles w folder, '/' ∉ name.toList)
    (hpasses : ∀ file ∈ requestFiles w folder, Passes config ids folder w console file) :
    let p := run config ids folder (requestFiles w folder) console w
    p.crashed = false ∧ p.console.Alike console ∧
      (∀ place text, Wanted config ids folder w place text →
        p.workspace.files.read? place = some (Utf8.encode text.toList)) ∧
      (∀ place, (∀ text, ¬ Wanted config ids folder w place text) →
        p.workspace.files.read? place = w.files.read? place) ∧
      (p.failures.head?.map Prod.snd) = firstFault? config ids folder w := by
  have hharmless : ∀ file ∈ requestFiles w folder,
      file ∈ requestFiles w folder ∧ Harmless config ids folder w console file :=
    fun file hfile =>
      ⟨hfile, (harmless_iff_passes hload hids hslash hfile).2 (hpasses file hfile)⟩
  have hrun := foldl_step_sound hload hids hslash hharmless sound_start running_start
  rw [← run_eq] at hrun
  obtain ⟨hsound, hrunning, hwritten, hfailures⟩ := hrun
  have hwritten : (run config ids folder (requestFiles w folder) console w).written =
      (requestFiles w folder).flatMap (writtenBy config ids folder w) := hwritten
  have hfailures : (run config ids folder (requestFiles w folder) console w).failures =
      (requestFiles w folder).flatMap (failuresBy config ids folder w) := hfailures
  refine ⟨hrunning, hsound.console, fun place text h => ?_, fun place h => ?_, ?_⟩
  · rw [hsound.contents, hwritten, writtenAt?_of_wanted hids hslash h, Option.some_or]
  · rw [hsound.contents, hwritten, writtenAt?_of_not_wanted h, Option.none_or]
  · rw [hfailures, firstFault?_eq]

/-- A request file that does not come to its end by itself keeps a batch from
its end. -/
theorem crashed_run (hload : Loads config ids folder w) (hids : ∀ id ∈ ids, id ∈ Language.ids)
    (hslash : ∀ name ∈ requestFiles w folder, '/' ∉ name.toList)
    (hfile : file ∈ requestFiles w folder) (h : ¬ Passes config ids folder w console file) :
    (run config ids folder (requestFiles w folder) console w).crashed = true := by
  by_contra hrunning
  have hall := (running_run_iff hload hids hslash fun _ h => h).1 (by simpa using hrunning)
  exact h ((harmless_iff_passes hload hids hslash hfile).1 (hall file hfile))

end

end Batch

/-- **Requests of a batch are isolated from each other, as long as each by
itself comes to its end.** Where the indexes load and the console takes what is
said, the files afterwards are those that were there and the snippets that each
request file gives by itself, in every language or not at all; the exit code is
that of the first request file that fails by itself, zero when none does. A
request file that ends a batch of its own in a defect, or whose snippets cannot
be written or its failure not be reported, ends every batch it is in. -/
theorem Command.runBatch_isolated {i : Invocation} {folder : String} {languages : Option String}
    {c : Console} {w : Workspace} {config : Config} {ids : List String}
    (hconfig : (Config.effective w none i.index >>= fun config => config.withCache w) = .ok config)
    (hids : Batch.languageIds config languages = .ok ids)
    (hload : Batch.Loads config ids (Files.tidy folder) w)
    (hslash : ∀ file ∈ Batch.requestFiles w (Files.tidy folder), '/' ∉ file.toList)
    (hheard : Batch.Heard config (Files.tidy folder) c) :
    let after := Command.runBatch i folder languages c w
    ((∀ file ∈ Batch.requestFiles w (Files.tidy folder),
        Batch.Passes config ids (Files.tidy folder) w (announce config c) file) →
      (∀ place text, Batch.Wanted config ids (Files.tidy folder) w place text →
        after.workspace.files.read? place = some (Utf8.encode text.toList)) ∧
      (∀ place, (∀ text, ¬ Batch.Wanted config ids (Files.tidy folder) w place text) →
        after.workspace.files.read? place = w.files.read? place) ∧
      after.exit =
        ((Batch.firstFault? config ids (Files.tidy folder) w).map Fault.exitCode).getD 0) ∧
    ((∃ file ∈ Batch.requestFiles w (Files.tidy folder),
        ¬ Batch.Passes config ids (Files.tidy folder) w (announce config c) file) →
      after.exit = 1) := by
  intro after
  have hlanguages := Batch.mem_ids_of_languageIds hids
  cases hfiles : (Batch.requestFiles w (Files.tidy folder)).isEmpty with
  | true =>
    have hafter : after = ⟨0, c.warning (Batch.noFiles (Files.tidy folder)), w, false⟩ := by
      rw [← Ended.close_of_whole hheard.noFiles]
      simp only [after, Command.runBatch, hfiles, if_true, Ended.well]
    have hnil := List.isEmpty_iff.1 hfiles
    refine ⟨fun _ => ?_, by simp [hnil]⟩
    rw [hafter]
    refine ⟨?_, fun place _ => rfl, by simp [Batch.firstFault?, hnil]⟩
    rintro place text ⟨file, hfile, -⟩
    simp [hnil] at hfile
  | false =>
    have hafter : after = Batch.finish (Batch.requestFiles w (Files.tidy folder)).length
        (Batch.run config ids (Files.tidy folder) (Batch.requestFiles w (Files.tidy folder))
          (announce config c) w) := by
      simp only [after, Command.runBatch, hfiles, hconfig, hids, hheard.announced,
        Bool.false_eq_true, if_false]
    rw [hafter]
    constructor
    · intro hpasses
      obtain ⟨hrunning, hconsole, hwanted, hrest, hfault⟩ :=
        Batch.run_sound hload hlanguages hslash hpasses
      obtain ⟨hworkspace, hexit⟩ := Batch.finish_of_running
        (Batch.requestFiles w (Files.tidy folder)).length hheard hconsole hrunning
      rw [hworkspace, hexit, hfault]
      exact ⟨hwanted, hrest, rfl⟩
    · rintro ⟨file, hfile, hcrash⟩
      exact Batch.exit_finish_of_crashed (Batch.crashed_run hload hlanguages hslash hfile hcrash)

namespace Batch

/-- A description of one operation. -/
def deskDocument : Doc :=
  .map
    [(.text "openapi", .scalar (.text "3.0.0")),
     (.text "paths", .map [(.text "/me", .map [(.text "get", .map [])])])]

/-- The index of `deskDocument`. -/
def deskIndex : Index :=
  { catalog := { document := deskDocument, schemas := [] }
    root :=
      { segment := "", path := "/", children :=
        [{ segment := "me", path := "/me", operations := [(.get, { method := .get })] }] } }

/-- A folder with a file that reads as a tag and a request, and a description
from an earlier download. -/
def deskWorkspace : Workspace where
  files :=
    { contents :=
        [(["desk", "a-httpSnippet"], Utf8.encode "[/x]".toList),
         (["desk", "b-httpSnippet"],
           Utf8.encode "GET https://graph.microsoft.com/v1.0/me".toList)] }
  folder := ["desk"]
  network := fun _ => .failure ""
  documents := [("https://d", deskDocument)]

/-- A console with colours, or without. -/
def deskConsole (coloured : Bool) : Console :=
  { style := {}, markup := if coloured then some Markup.untagged else none }

/-- The configuration that takes every version from the description. -/
def deskConfig : Config :=
  { Config.default with override := some "https://d" }

theorem index_deskWorkspace : Source.index deskConfig.caching "https://d" deskWorkspace =
    (.ok deskIndex, deskWorkspace) := rfl

theorem effective_deskWorkspace : (Config.effective deskWorkspace none (some "https://d") >>=
    fun config => config.withCache deskWorkspace) = .ok deskConfig := by rfl

theorem locate_deskWorkspace :
    deskWorkspace.locate ("." ++ "/" ++ snippetFile "b-httpSnippet" "cli") =
      some ["desk", "b---cli"] := by rfl

theorem loads_deskWorkspace : Loads deskConfig ["cli"] "." deskWorkspace := by
  intro v c _ hc
  obtain rfl : (⟨"https://d", none⟩ : Cell String Index) = c := Option.some.inj hc
  refine ⟨deskIndex, fun w' h => ?_⟩
  -- An override serves every version, so there is no other cell.
  cases h with
  | start => rw [index_deskWorkspace]
  | load h hu hother hc => cases hother
  | write h hu hother hc hfile hid hwrite => cases hother

theorem tidy_dot : Files.tidy "." = "." := rfl

theorem requestFiles_deskWorkspace :
    requestFiles deskWorkspace "." = ["a-httpSnippet", "b-httpSnippet"] := by
  have hnames : (deskWorkspace.names ".").filter (Text.hasEnd requestSuffix) =
      ["a-httpSnippet", "b-httpSnippet"] := rfl
  rw [requestFiles, hnames]
  exact List.mergeSort_of_pairwise (by decide)

theorem mem_deskWorkspace {file : String} : file ∈ requestFiles deskWorkspace "." ↔
    file = "a-httpSnippet" ∨ file = "b-httpSnippet" := by
  simp [requestFiles_deskWorkspace]

theorem requestIn_deskWorkspace : requestIn "." deskWorkspace "b-httpSnippet" =
    .ok { method := .get, url := "https://graph.microsoft.com/v1.0/me" } := by rfl

theorem alone_request : alone deskConfig ["cli"] "." deskWorkspace "b-httpSnippet" =
    .ok [("cli", "mgc me get\n")] := by
  rw [alone, requestIn_deskWorkspace]
  rfl

theorem alone_tag : alone deskConfig ["cli"] "." deskWorkspace "a-httpSnippet" =
    .error (.usage (.requestLine "[/x]")) := rfl

theorem slash_deskWorkspace : ∀ file ∈ requestFiles deskWorkspace ".", '/' ∉ file.toList := by
  rw [requestFiles_deskWorkspace]
  decide

theorem announce_deskConsole (coloured : Bool) :
    Command.announce deskConfig (deskConsole coloured) = deskConsole coloured :=
  announce_of_not_verbose rfl

theorem not_mem_count {n : Nat} {c : Char} (hc : Naming.isWordChar c = false) :
    c ∉ (toString n).toList := by
  intro h
  rw [Number.isWordChar_of_mem_toString h] at hc
  cases hc

/-- The texts a batch ends with have no brackets, so a terminal shows them. -/
theorem heard_deskConsole (coloured : Bool) : Heard deskConfig "." (deskConsole coloured) := by
  have hopen : Naming.isWordChar '[' = false := by decide
  have hslash : Naming.isWordChar '\\' = false := by decide
  cases coloured with
  | false => exact heard_of_isPlain ⟨rfl, rfl⟩
  | true =>
    constructor
    · rw [announce_deskConsole]
      rfl
    · decide
    · intro snippets requests
      rw [announce_deskConsole]
      refine Console.broken_success.2 ⟨rfl, fun _ => ?_⟩
      rintro markup ⟨⟩
      rw [Markup.untagged_between]
      · rfl
      · simp only [written, String.toList_append, List.mem_append, not_mem_count hopen]
        decide
      · simp only [written, String.toList_append, List.mem_append, not_mem_count hslash]
        decide
    · intro requests
      rw [announce_deskConsole]
      refine Console.broken_info.2 ⟨rfl, fun _ => ?_⟩
      rintro markup ⟨⟩
      rw [Markup.untagged_of_no_tag]
      · rfl
      · simp only [withErrors, String.toList_append, List.mem_append, not_mem_count hopen]
        decide
      · simp only [withErrors, String.toList_append, List.mem_append, not_mem_count hslash]
        decide

section

-- what the two files give is known, and is not computed again
attribute [local irreducible] alone

theorem harmless_request (coloured : Bool) :
    Harmless deskConfig ["cli"] "." deskWorkspace (deskConsole coloured) "b-httpSnippet" := by
  have hwrite : (deskWorkspace.write? ("." ++ "/" ++ snippetFile "b-httpSnippet" "cli")
      []).isSome = true := by rfl
  have hcan : deskWorkspace.CanWrite ("." ++ "/" ++ snippetFile "b-httpSnippet" "cli") :=
    Workspace.isSome_write?_iff.1 hwrite
  have htext : Utf8.isEncodable "mgc me get\n" = true := by decide
  rw [Harmless, alone_request]
  intro t ht
  obtain rfl := List.mem_singleton.1 ht
  exact ⟨htext, hcan⟩

/-- The report on a line that reads as a tag is refused where there are
colours. -/
theorem harmless_tag (coloured : Bool) :
    Harmless deskConfig ["cli"] "." deskWorkspace (deskConsole coloured) "a-httpSnippet" ↔
      coloured = false := by
  rw [Harmless, alone_tag]
  have hkind : ∀ kind, Fault.usage (.requestLine "[/x]") ≠ .defect kind := by
    rintro kind ⟨⟩
  cases coloured <;> simp only [hkind, ne_eq, not_false_eq_true, implies_true, true_and] <;> decide

theorem firstFault?_deskWorkspace :
    firstFault? deskConfig ["cli"] "." deskWorkspace = some (.usage (.requestLine "[/x]")) := by
  rw [firstFault?, requestFiles_deskWorkspace, List.findSome?_cons, alone_tag]

theorem passes_deskWorkspace : ∀ file ∈ requestFiles deskWorkspace ".",
    Passes deskConfig ["cli"] "." deskWorkspace (deskConsole false) file := by
  intro file hfile
  refine (harmless_iff_passes loads_deskWorkspace (by decide) slash_deskWorkspace hfile).1 ?_
  obtain rfl | rfl := mem_deskWorkspace.1 hfile
  · exact (harmless_tag false).2 rfl
  · exact harmless_request false

theorem not_passes_deskWorkspace :
    ¬ Passes deskConfig ["cli"] "." deskWorkspace (deskConsole true) "a-httpSnippet" := by
  rw [← harmless_iff_passes loads_deskWorkspace (by decide) slash_deskWorkspace
    (mem_deskWorkspace.2 (.inl rfl)), harmless_tag]
  decide

end

end Batch

open Batch in
/-- The file that is no request decides the exit code, and the one behind it has
its snippet. Where there are colours the report on it ends the batch. -/
theorem Command.runBatch_isolated_desk :
    let i : Invocation := { command := .batch "." (some "cli"), index := some "https://d" }
    let after (coloured : Bool) :=
      Command.runBatch i "." (some "cli") (deskConsole coloured) deskWorkspace
    (after false).workspace.files.read? ["desk", "b---cli"] =
        some (Utf8.encode "mgc me get\n".toList) ∧
      (after false).workspace.files.read? ["desk", "a---cli"] = none ∧ (after false).exit = 2 ∧
      (after true).exit = 1 := by
  intro i after
  have hdesk := fun coloured => @Command.runBatch_isolated i "." (some "cli") (deskConsole coloured)
    deskWorkspace deskConfig ["cli"] effective_deskWorkspace rfl
    loads_deskWorkspace slash_deskWorkspace (heard_deskConsole coloured)
  simp only [tidy_dot, announce_deskConsole] at hdesk
  obtain ⟨hwanted, hrest, hexit⟩ := (hdesk false).1 passes_deskWorkspace
  refine ⟨hwanted _ _ ⟨"b-httpSnippet", mem_deskWorkspace.2 (.inr rfl), _, "cli", alone_request,
    by simp, locate_deskWorkspace⟩, ?_, ?_,
    (hdesk true).2 ⟨"a-httpSnippet", mem_deskWorkspace.2 (.inl rfl), not_passes_deskWorkspace⟩⟩
  · rw [hrest]
    · rfl
    · rintro text ⟨file, hfile, texts, id, halone, hmem, hplace⟩
      obtain rfl | rfl := mem_deskWorkspace.1 hfile
      · rw [alone_tag] at halone
        cases halone
      · rw [alone_request] at halone
        obtain rfl := Except.ok.inj halone
        obtain ⟨rfl, rfl⟩ : id = "cli" ∧ text = "mgc me get\n" := by simpa using hmem
        rw [locate_deskWorkspace] at hplace
        exact absurd (Option.some.inj hplace) (by decide)
  · rw [hexit, firstFault?_deskWorkspace]
    rfl

end ApiSnippets
