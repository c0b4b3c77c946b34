import ApiSnippets.Proofs.Registry
import ApiSnippets.Proofs.Settings.Setting
import ApiSnippets.Proofs.Text.Lowered
import ApiSnippets.Settings.Effective
/-!
# Sources in effect

Versions are compared without letter case, but the tables of their sources
tell spellings apart: a version may be listed in several, and the last one
counts. Entries whose keys are in lower case are put into such a table with
effect, as long as no spelling with capitals stands behind the one without
(`Settled`); then they beat every entry of before (`lastSource_putAll`). That
is how a project file and a new source change what the registry serves.
-/

namespace ApiSnippets

namespace Registry

variable {S A : Type} {r : Registry S A} {sources : List (String × S)} {s : S} {v : String}

/-! ## What a registry loads -/

/-- Asked for a version, a registry loads one source, whatever is built from it
and however: it calls the factory for this source, once, and gives what comes
of it. -/
def Serves (r : Registry S A) (version : String) (s : S) : Prop :=
  ∀ {W : Type} (build : S → W → Outcome A × W) (w : W),
    ∃ after, r.get build version w = ((build s w).1, after, (build s w).2)

theorem serves_of_cell (h : r.cell? v = some ⟨s, none⟩) : r.Serves v s := by
  intro W build w
  rw [get_of_cell h, Cell.get_of_empty rfl]
  exact ⟨_, rfl⟩

/-- A factory that refuses every source, and keeps a list of them. -/
def listing (s : S) (asked : List S) : Outcome A × List S :=
  (.error .malformedBody, s :: asked)

/-- **A registry of sources loads the source of the version** and no other
one. -/
theorem serves_ofSources_iff {override : Option S} :
    (ofSources sources override : Registry S A).Serves v s ↔
      sourceFor sources override v = some s := by
  have hcell := cell?_ofSources (A := A) sources override v
  constructor
  · intro h
    obtain ⟨after, hget⟩ := h listing []
    cases hs : sourceFor sources override v with
    | none =>
      rw [hs] at hcell
      rw [get_of_no_cell hcell] at hget
      simp [listing] at hget
    | some t =>
      rw [hs] at hcell
      rw [get_of_cell hcell, Cell.get_of_empty rfl] at hget
      simp only [listing, Prod.mk.injEq, List.cons.injEq, and_true] at hget
      rw [hget.2.2]
  · intro h
    rw [h] at hcell
    exact serves_of_cell hcell

end Registry

namespace Entries

variable {S : Type} {es pairs : Entries String S} {k u : String} {s : S}

/-! ## Tables with spellings -/

/-- The source listed last for a version, in whatever letter case. -/
def lastSource (es : Entries String S) (version : String) : Option S :=
  (es.reverse.find? fun e => Text.sameLetters version e.1).map Prod.snd

/-- No key stands behind its own lower case. -/
def Settled (es : Entries String S) : Prop :=
  (keys es).Pairwise fun a b => Text.lower a = a → Text.lower b ≠ a

theorem settled_of_distinct (h : ((keys es).map Text.lower).Nodup) : Settled es := by
  rw [List.Nodup, List.pairwise_map] at h
  exact h.imp fun hne hlower hsame => hne (hlower.trans hsame.symm)

theorem Settled.put (h : Settled es) (hk : Text.lower k = k) : Settled (put k s es) := by
  by_cases hmem : k ∈ keys es
  · rcases put_cases k s es with ⟨before, k', w, after, rfl, -, hput⟩ | ⟨hnew, -⟩
    · rw [hput]
      simpa [Settled, keys] using h
    · obtain ⟨e, he, rfl⟩ := List.mem_map.1 hmem
      simpa using hnew e he
  · rw [put_of_not_mem hmem, Settled, keys, List.map_append, List.pairwise_append]
    refine ⟨h, List.pairwise_singleton _ _, fun a ha b hb _ hsame => ?_⟩
    obtain rfl : b = k := by simpa using hb
    exact hmem (hk.symm.trans hsame ▸ ha)

theorem lastSource_append (es ds : Entries String S) :
    lastSource (es ++ ds) u = (lastSource ds u).or (lastSource es u) := by
  rw [lastSource, List.reverse_append, List.find?_append, Option.map_or]
  rfl

theorem lastSource_eq_none_iff :
    lastSource es u = none ↔ ∀ e ∈ es, Text.lower u ≠ Text.lower e.1 := by
  simp [lastSource, Text.sameLetters]

theorem lastSource_singleton :
    lastSource [(k, s)] u = if Text.lower u = Text.lower k then some s else none := by
  by_cases h : Text.lower u = Text.lower k <;> simp [lastSource, Text.sameLetters, h]

/-- **A source put under a version in lower case takes effect** for every
spelling of the version, and for no other version. -/
theorem lastSource_put (h : Settled es) (hk : Text.lower k = k) :
    lastSource (put k s es) u = if Text.lower u = k then some s else lastSource es u := by
  have hone := lastSource_singleton (k := k) (s := s) (u := u)
  rw [hk] at hone
  rcases put_cases k s es with ⟨before, k', w, after, rfl, hsame, hput⟩ | ⟨-, hput⟩
  · obtain rfl := eq_of_beq hsame
    have hcut : ∀ x, before ++ (k, x) :: after = before ++ ([(k, x)] ++ after) := fun _ => rfl
    have hother := lastSource_singleton (k := k) (s := w) (u := u)
    rw [hk] at hother
    rw [hput, hcut, hcut, lastSource_append, lastSource_append, lastSource_append,
      lastSource_append, hone, hother]
    split
    · next hu =>
      -- no spelling of the version stands behind this one
      have hafter : lastSource after u = none := by
        rw [lastSource_eq_none_iff]
        intro e he hsame
        rw [Settled, keys, List.map_append, List.map_cons, List.pairwise_append,
          List.pairwise_cons] at h
        exact h.2.1.1 e.1 (List.mem_map_of_mem he) hk (hsame.symm.trans hu)
      rw [hafter]
      rfl
    · rfl
  · rw [hput, lastSource_append, hone]
    split <;> rfl

theorem lastSource_putAll (h : Settled es) (hpairs : ∀ p ∈ pairs, Text.lower p.1 = p.1) :
    lastSource (putAll es pairs) u = (lastSource pairs u).or (lastSource es u) := by
  induction pairs generalizing es with
  | nil => rfl
  | cons p pairs ih =>
    obtain ⟨hp, hpairs⟩ := List.forall_mem_cons.1 hpairs
    have hone := lastSource_singleton (k := p.1) (s := p.2) (u := u)
    have hcut : p :: pairs = [(p.1, p.2)] ++ pairs := rfl
    show lastSource (putAll (put p.1 p.2 es) pairs) u = _
    rw [ih (h.put hp) hpairs, lastSource_put h hp, hcut, lastSource_append, hone, hp]
    split
    · simp
    · simp

end Entries

namespace Config

variable {c config : Config} {w w' : Workspace} {members : List (String × Json)} {u s : String}
variable {language override : Option String}

/-! ## Project files -/

/-- The sources a project file lists, as it spells the versions. -/
def projectEntries (members : List (String × Json)) : List (String × String) :=
  match members.lookup "index_sources" with
  | some (.obj sources) => sources.map fun p => (p.1, p.2.asText)
  | _ => []

theorem projectSources_eq : projectSources members =
    Entries.ofPairs ((projectEntries members).map fun p => (Text.lower p.1, p.2)) := by
  unfold projectSources projectEntries
  cases members.lookup "index_sources" with
  | none => rfl
  | some v =>
    cases v with
    | obj sources => simp [Function.comp_def]
    | _ => rfl

theorem lastSource_lowered (ps : List (String × String)) :
    Entries.lastSource (ps.map fun p => (Text.lower p.1, p.2)) u = Entries.lastSource ps u := by
  simp [Entries.lastSource, ← List.map_reverse, List.find?_map, Function.comp_def,
    Text.sameLetters]

/-- **The source of a version with a project file**: the one the file lists
last for it, or that of the configuration. -/
theorem lastSource_withProject (h : Entries.Settled c.sources) :
    Entries.lastSource (c.withProject members).sources u =
      (Entries.lastSource (projectEntries members) u).or (Entries.lastSource c.sources u) := by
  have hlower : ∀ p ∈ (projectEntries members).map fun p => (Text.lower p.1, p.2),
      Text.lower p.1 = p.1 := by
    intro p hp
    obtain ⟨q, -, rfl⟩ := List.mem_map.1 hp
    exact Text.lower_lower q.1
  show Entries.lastSource (Entries.putAll c.sources (projectSources members)) u = _
  rw [projectSources_eq, Entries.putAll_ofPairs, Entries.lastSource_putAll h hlower,
    lastSource_lowered]

/-- The text of the project file, whatever folders there are. -/
theorem text_projectPath (h : ∀ name ∈ w.folder, Files.IsEntry name) :
    w.text (projectPath w) = w.files.text (w.folder ++ ["snipgen.json"]) := by
  refine Workspace.text_entry h ⟨?_, ?_, ?_, ?_⟩ <;> decide

/-- A configuration that is saved leaves the project file. -/
theorem project_of_save (hfolder : ∀ name ∈ w.folder, Files.IsEntry name)
    (h : save c w = .ok w') : project w' = project w := by
  have hplace : ¬ IsPlace w (w.folder ++ ["snipgen.json"]) := by
    intro hplace
    obtain ⟨d, hd⟩ := hplace.exists_folder
    exact absurd (List.singleton_inj.1 (List.append_inj' hd rfl).2) (by decide)
  have hread := read?_of_save h hplace
  obtain ⟨files, rfl⟩ := exists_files_of_save h
  have htext :
      Workspace.text { w with files := files } (projectPath w) = w.text (projectPath w) := by
    rw [text_projectPath hfolder]
    refine (text_projectPath (w := { w with files := files }) hfolder).trans ?_
    simp only [Files.text, hread]
  have hpath : projectPath { w with files := files } = projectPath w := rfl
  delta project
  rw [hpath, htext]

/-! ## The configuration in effect -/

/-- No override is in effect. -/
def IsFree (c : Config) : Prop :=
  c.override.filter (· ≠ "") = none

theorem effective_eq (hload : load w = .ok c) (hproject : project w = .ok members) :
    effective w language override =
      .ok (((c.withProject members).withChoices (w.setting? "SNIPGEN_LANGUAGE")
        (w.setting? "SNIPGEN_INDEX")).withChoices language override) := by
  rw [effective, hload, hproject]
  rfl

/-- **What the registry of the configuration in effect loads**: for every
version the source that the project file lists last, or else the one that the
configuration lists last. -/
theorem serves_registry_iff (hload : load w = .ok c) (hproject : project w = .ok members)
    (hconfig : effective w language override = .ok config) (hfree : config.IsFree)
    (hsettled : Entries.Settled c.sources) :
    config.registry.Serves u s ↔
      (Entries.lastSource (projectEntries members) u).or (Entries.lastSource c.sources u) =
        some s := by
  rw [effective_eq hload hproject] at hconfig
  obtain rfl := Except.ok.inj hconfig
  rw [registry, hfree, Registry.serves_ofSources_iff, Registry.sourceFor, Option.none_or,
    ← lastSource_withProject hsettled]
  rfl

/-- After a source is put into the configuration and saved, it is loaded for
every spelling of its version that the project file does not list. -/
theorem serves_withSource {version source : String} (hload : load w = .ok c)
    (hproject : project w = .ok members) (hconfig : effective w language override = .ok config)
    (hfree : config.IsFree) (hsettled : Entries.Settled c.sources)
    (hfolder : ∀ name ∈ w.folder, Files.IsEntry name)
    (hsave : (c.withSource version source).save w = .ok w') :
    ∃ after, effective w' language override = .ok after ∧ ∀ u s, after.registry.Serves u s ↔
      (Entries.lastSource (projectEntries members) u).or
        (if Text.lower u = Text.lower version then some source
          else Entries.lastSource c.sources u) = some s := by
  have hlower := Text.lower_lower version
  have htable : (c.withSource version source).IsTable :=
    Entries.nodup_keys_put (isTable_of_load hload)
  have hload' := load_of_save htable hsave
  have hproject' := (project_of_save hfolder hsave).trans hproject
  have hafter : effective w' language override = .ok _ := effective_eq hload' hproject'
  obtain ⟨files, rfl⟩ := exists_files_of_save hsave
  rw [effective_eq hload hproject] at hconfig
  obtain rfl := Except.ok.inj hconfig
  refine ⟨_, hafter, fun u s => ?_⟩
  rw [serves_registry_iff hload' hproject' hafter hfree (hsettled.put hlower)]
  show _ = some s ↔ _
  rw [withSource, Entries.lastSource_put hsettled hlower]

end Config

end ApiSnippets
