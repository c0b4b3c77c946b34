import ApiSnippets.Command.Settings
import ApiSnippets.Proofs.Command.Console
import ApiSnippets.Proofs.Outcome
import ApiSnippets.Proofs.Settings.Effective
/-!
# Changes of the configuration

The configuration is loaded, changed and saved, or nothing is written save the
log of a defect. So a command that fails leaves the file of the configuration
as it is, and `config set` that does not fail replaces one value in it
(`runSetConfig_atomic`). The change is saved before it is remarked on, and a
terminal that refuses the remark comes too late (`runSetConfig_of_refused`); one
without colours refuses none. A source that `config set-source` puts there is
what the registry loads from then on, for every spelling of its version, unless
a project file says otherwise (`source_takes_effect`).
-/

namespace ApiSnippets

/-! ## Faults -/

theorem Fault.exitCode_ne_zero (f : Fault) : f.exitCode ≠ 0 := by
  cases f <;> simp [exitCode]

namespace Ended

variable {exit : Nat} {f : Fault} {c : Console} {w : Workspace} {name : String}

theorem exit_close_of_broken (h : c.broken = true) : (close exit c w).exit = 1 := by
  rw [close, if_pos h]
  rfl

theorem exit_close_ne_zero (h : exit ≠ 0) : (close exit c w).exit ≠ 0 := by
  unfold close
  split
  · exact Nat.one_ne_zero
  · exact h

/-- **A command ends well when everything could be written.** -/
theorem exit_well_eq_zero_iff : (well c w).exit = 0 ↔ c.broken = false := by
  cases hbroken : c.broken with
  | true => simp [well, exit_close_of_broken hbroken]
  | false => simp [well, close_of_whole hbroken]

theorem exit_refuse_ne_zero : (refuse f c w).exit ≠ 0 := by
  unfold refuse
  split
  · exact Nat.one_ne_zero
  · exact exit_close_ne_zero (Fault.exitCode_ne_zero _)

/-- **A defect leaves every file that is no log.** -/
theorem read?_crash (hname : Text.hasEnd ".log" name = false) (d : Place) :
    (crash c w).workspace.files.read? (d ++ [name]) = w.files.read? (d ++ [name]) := by
  simp only [crash]
  generalize Utf8.encode _ = log
  cases hwrite : w.writeIn? w.logFolder w.logName log with
  | none => rfl
  | some w' =>
    rw [Workspace.writeIn?, Option.bind_eq_bind, Option.bind_eq_some_iff] at hwrite
    obtain ⟨made, hmade, hwrite⟩ := hwrite
    obtain ⟨names, first, hpieces, hslash⟩ :=
      Files.exists_pieces_of_end w.logFolder ("crash-" ++ w.time)
        (by decide : '/' ∉ ".log".toList)
    have hentry : Files.IsEntry (first ++ ".log") := by
      refine Files.isEntry_of_length hslash ?_
      simp
    have hne : name ≠ first ++ ".log" := by
      rintro rfl
      have hsuffix : ".log".toList <:+ (first ++ ".log").toList := ⟨first.toList, by simp⟩
      rw [Text.hasEnd, List.isSuffixOf_iff_suffix.2 hsuffix] at hname
      cases hname
    rw [Option.getD_some, Workspace.read?_of_write?_ne hentry hpieces hne hwrite,
      Workspace.read?_of_makeFolder? hmade]

theorem read?_close (hname : Text.hasEnd ".log" name = false) (d : Place) :
    (close exit c w).workspace.files.read? (d ++ [name]) = w.files.read? (d ++ [name]) := by
  unfold close
  split
  · exact read?_crash hname d
  · rfl

theorem read?_refuse (hname : Text.hasEnd ".log" name = false) (d : Place) :
    (refuse f c w).workspace.files.read? (d ++ [name]) = w.files.read? (d ++ [name]) := by
  unfold refuse
  split
  · exact read?_crash hname d
  · exact read?_close hname d

end Ended

namespace Command

variable {c : Console} {w w' : Workspace} {key value shown remark : String}
variable {change : Outcome (Workspace × String)}

/-! ## Changes -/

/-- A change comes to a good end when it is made and remarked on. -/
theorem exit_changed_eq_zero_iff : (changed c w change).exit = 0 ↔
    ∃ w' remark, change = .ok (w', remark) ∧ (c.success remark).broken = false := by
  cases change with
  | error f => simpa [changed] using Ended.exit_refuse_ne_zero
  | ok r =>
    obtain ⟨w', remark⟩ := r
    simp [changed, Ended.exit_well_eq_zero_iff]

/-- **A change that is made and remarked on leaves its workspace.** -/
theorem workspace_changed (h : (c.success remark).broken = false) :
    (changed c w (.ok (w', remark))).workspace = w' := by
  rw [changed, Ended.well, Ended.close_of_whole h]

/-- **A change that fails leaves the file of the configuration**, or leaves it
absent, unless it is only the remark on it that cannot be written. -/
theorem read?_changed (hexit : (changed c w change).exit ≠ 0)
    (hremark : ∀ w' remark, change = .ok (w', remark) → (c.success remark).broken = false)
    {p : Place} (hp : Config.IsPlace w p) :
    (changed c w change).workspace.files.read? p = w.files.read? p := by
  cases change with
  | error f =>
    obtain ⟨d, rfl⟩ := hp.exists_folder
    exact Ended.read?_refuse (by decide) d
  | ok r => exact (hexit (exit_changed_eq_zero_iff.2 ⟨r.1, r.2, rfl, hremark _ _ rfl⟩)).elim

/-! ## Values -/

/-- **A value is set in three steps**: the configuration is loaded, the text is
assigned and what comes of it is saved. -/
theorem set_eq_ok : Config.set key value w = .ok (w', shown) ↔
    ∃ before after, Config.load w = .ok before ∧
      Setting.assignAt before key value = .ok (after, shown) ∧ after.save w = .ok w' := by
  unfold Config.set
  cases Config.load w with
  | error f => simp [bind, Except.bind]
  | ok before =>
    cases hassign : Setting.assignAt before key value with
    | error e => simp [bind, Except.bind, hassign]
    | ok changed =>
      obtain ⟨after, shown'⟩ := changed
      cases hsave : after.save w with
      | error f => simp [bind, Except.bind, hassign, hsave]
      | ok w'' => simp [bind, Except.bind, pure, Except.pure, hassign, hsave, and_comm]

/-- When a value is set: the key leads to a value, the text stands for one and
the configuration can be saved. -/
theorem exists_set_iff : (∃ w' shown, Config.set key value w = .ok (w', shown)) ↔
    ∃ before after, Config.load w = .ok before ∧ Setting.Replaces key value before after ∧
      after.isWritable = true ∧ Config.CanSave w := by
  constructor
  · rintro ⟨w', shown, hset⟩
    obtain ⟨before, after, hload, hassign, hsave⟩ := set_eq_ok.1 hset
    exact ⟨before, after, hload,
      (Setting.assignAt_eq_ok (Config.isTable_of_load hload)).1 ⟨shown, hassign⟩,
      Config.exists_save_iff.1 ⟨w', hsave⟩⟩
  · rintro ⟨before, after, hload, hreplaces, hsave⟩
    obtain ⟨shown, hassign⟩ :=
      (Setting.assignAt_eq_ok (Config.isTable_of_load hload)).2 hreplaces
    obtain ⟨w', hw'⟩ := Config.exists_save_iff.2 hsave
    exact ⟨w', shown, set_eq_ok.2 ⟨before, after, hload, hassign, hw'⟩⟩

/-- **What setting a value comes to**: the file of the configuration is the only
one that changes, and what is loaded from it has the value. -/
theorem load_of_set (h : Config.set key value w = .ok (w', shown)) :
    (∀ p, ¬ Config.IsPlace w p → w'.files.read? p = w.files.read? p) ∧
      ∃ before after, Config.load w = .ok before ∧ Config.load w' = .ok after ∧
        Setting.Replaces key value before after := by
  obtain ⟨before, after, hload, hassign, hsave⟩ := set_eq_ok.1 h
  have htable := Config.isTable_of_load hload
  have hreplaces := (Setting.assignAt_eq_ok htable).1 ⟨shown, hassign⟩
  exact ⟨fun p hp => Config.read?_of_save hsave hp, before, after, hload,
    Config.load_of_save (hreplaces.isTable htable) hsave, hreplaces⟩

/-- The console takes the remark on a value that is set. -/
def TakesRemark (key value : String) (c : Console) (w : Workspace) : Prop :=
  ∀ w' shown, Config.set key value w = .ok (w', shown) →
    (c.success (valueSet key shown)).broken = false

/-- A console without colours takes every remark. -/
theorem takesRemark_of_isPlain (h : c.IsPlain) : TakesRemark key value c w :=
  fun _ _ _ => h.success.broken

theorem exit_runSetConfig_eq_zero_iff : (runSetConfig key value c w).exit = 0 ↔
    ∃ w' shown, Config.set key value w = .ok (w', shown) ∧
      (c.success (valueSet key shown)).broken = false := by
  rw [runSetConfig, exit_changed_eq_zero_iff]
  constructor
  · rintro ⟨w', remark, hchange, hremark⟩
    obtain ⟨⟨w'', shown⟩, hset, heq⟩ := Outcome.map_eq_ok.1 hchange
    obtain ⟨rfl, rfl⟩ := Prod.mk.inj heq
    exact ⟨w'', shown, hset, hremark⟩
  · rintro ⟨w', shown, hset, hremark⟩
    exact ⟨w', valueSet key shown, by rw [hset]; rfl, hremark⟩

/-- **A remark that is refused comes too late**: the command fails, and the value
is set. -/
theorem runSetConfig_of_refused (hset : Config.set key value w = .ok (w', shown))
    (hrefused : (c.success (valueSet key shown)).broken = true) :
    (runSetConfig key value c w).exit = 1 ∧ ∀ p, Config.IsPlace w p →
      (runSetConfig key value c w).workspace.files.read? p = w'.files.read? p := by
  have hdone : runSetConfig key value c w = .close 0 (c.success (valueSet key shown)) w' := by
    rw [runSetConfig, hset]
    rfl
  rw [hdone]
  refine ⟨Ended.exit_close_of_broken hrefused, fun p hp => ?_⟩
  obtain ⟨d, rfl⟩ := hp.exists_folder
  exact Ended.read?_close (by decide) d

/-- A tag in the text ends a style that was not begun. -/
example : Markup.untagged ("[green]" ++ valueSet "output.format" "[/x]" ++ "[/green]") = none := by
  rfl

/-- A console with colours. -/
def colouredConsole : Console :=
  { style := {}, markup := some Markup.untagged }

/-- The remark on a number has no brackets, so the terminal shows it. -/
theorem takesRemark_lifetime :
    TakesRemark "cache.ttl_seconds" "600" colouredConsole Config.emptyWorkspace := by
  have hload : Config.load Config.emptyWorkspace = .ok .default := rfl
  have hassign : Setting.assignAt .default "cache.ttl_seconds" "600" =
      .ok ({ Config.default with caching := ⟨true, 600⟩ }, "600") := by rfl
  have hshows : colouredConsole.Shows
      ("[green]" ++ valueSet "cache.ttl_seconds" "600" ++ "[/green]") := by
    rintro markup ⟨⟩
    rw [Markup.untagged_between (by decide) (by decide)]
    rfl
  have htaken : (colouredConsole.success (valueSet "cache.ttl_seconds" "600")).broken = false :=
    Console.broken_success.2 ⟨rfl, fun _ => hshows⟩
  intro w' shown h
  obtain ⟨before, after, hbefore, hassigned, -⟩ := set_eq_ok.1 h
  obtain rfl := Except.ok.inj (hload.symm.trans hbefore)
  obtain ⟨-, rfl⟩ := Prod.mk.inj (Except.ok.inj (hassign.symm.trans hassigned))
  exact htaken

theorem setSource_of_load {version source : String} {config : Config}
    (hload : Config.load w = .ok config) :
    Config.setSource version source w = (config.withSource version source).save w := by
  simp only [Config.setSource, hload, bind, Except.bind]

/-- **A source that is configured takes effect for every spelling of its
version**, where no override is in effect and the configuration of the user
has no two spellings of one version. Of the entries of a project file the last
one for a version is loaded, whatever the user has configured; all other
versions are loaded from the source of the user. After a new source is set it
is loaded for the version, unless the project file has an entry for it; all
other versions are loaded from where they were loaded before. The working
folder is named as that of a process is, without `.` and `..`. -/
theorem source_takes_effect {w : Workspace} {config before : Config}
    {members : List (String × Json)} {language override : Option String}
    (hload : Config.load w = .ok config) (hproject : Config.project w = .ok members)
    (hbefore : Config.effective w language override = .ok before) (hfree : before.IsFree)
    (hdistinct : ((Entries.keys config.sources).map Text.lower).Nodup)
    (hfolder : ∀ name ∈ w.folder, Files.IsEntry name) :
    let listed := Entries.lastSource (Config.projectEntries members)
    (∀ u s, listed u = some s →
      ∀ v, Text.lower v = Text.lower u → before.registry.Serves v s) ∧
    (∀ u, listed u = none →
      ∀ s, before.registry.Serves u s ↔ Entries.lastSource config.sources u = some s) ∧
    ∀ version source,
      ((∃ w', Config.setSource version source w = .ok w') ↔
        config.isWritable = true ∧ Config.CanSave w) ∧
      ∀ w', Config.setSource version source w = .ok w' →
        ∃ after, Config.effective w' language override = .ok after ∧
          (listed version = none →
            ∀ v, Text.lower v = Text.lower version → after.registry.Serves v source) ∧
          ∀ u, Text.lower u ≠ Text.lower version ∨ listed u ≠ none →
            ∀ s, after.registry.Serves u s ↔ before.registry.Serves u s := by
  intro listed
  have hsettled := Entries.settled_of_distinct hdistinct
  have hserves : ∀ {u s}, before.registry.Serves u s ↔
      (listed u).or (Entries.lastSource config.sources u) = some s :=
    Config.serves_registry_iff hload hproject hbefore hfree hsettled
  -- the entries for a version are those for all its spellings
  have hspelling : ∀ {u v}, Text.lower v = Text.lower u → listed v = listed u := by
    intro u v h
    simp only [listed, Entries.lastSource, Text.sameLetters, h]
  refine ⟨fun u s hs v hv => ?_, fun u hu s => ?_, fun version source => ?_⟩
  · rw [hserves, hspelling hv, hs]
    rfl
  · rw [hserves, hu, Option.none_or]
  · rw [setSource_of_load hload]
    refine ⟨Config.exists_save_iff, fun w' hsave => ?_⟩
    obtain ⟨after, hafter, hserves'⟩ :=
      Config.serves_withSource hload hproject hbefore hfree hsettled hfolder hsave
    refine ⟨after, hafter, fun hnone v hv => ?_, fun u hu s => ?_⟩
    · have hlisted : listed v = none := (hspelling hv).trans hnone
      rw [hserves', if_pos hv]
      show (listed v).or _ = _
      rw [hlisted, Option.none_or]
    · rw [hserves, hserves']
      show (listed u).or _ = _ ↔ _
      rcases hu with hu | hu
      · rw [if_neg hu]
      · obtain ⟨t, ht⟩ := Option.ne_none_iff_exists'.1 hu
        rw [ht]
        rfl

/-- A project file that lists one version, in capitals. -/
def listedSources : Json :=
  .obj [("index_sources", .obj [("BETA", .str "b.yaml")])]

/-- A workspace with this project file and no configuration. -/
def listingWorkspace : Workspace where
  files := { contents := [(["snipgen.json"], Utf8.encode listedSources.pretty.toList)] }
  folder := []
  network := fun _ => .failure "unreachable"

theorem project_listingWorkspace : Config.project listingWorkspace =
    .ok [("index_sources", .obj [("BETA", .str "b.yaml")])] := by
  have hexact : listedSources.IsExact :=
    .obj (by decide) (List.forall_mem_singleton.2
      (.obj (by decide) (List.forall_mem_singleton.2 (.str "b.yaml"))))
  have hread : Json.read listedSources.pretty = .ok listedSources := by
    have hread := Json.read_writeAt Json.readable_indented hexact 0 Json.Reader.isGap_nil
    rwa [List.append_nil, String.ofList_toList] at hread
  have htext : listingWorkspace.text (Config.projectPath listingWorkspace) =
      .text listedSources.pretty := by
    have hfile : listingWorkspace.files.read? ["snipgen.json"] =
        some (Utf8.encode listedSources.pretty.toList) := rfl
    have hplace : listingWorkspace.folder ++ ["snipgen.json"] = ["snipgen.json"] := rfl
    rw [Config.text_projectPath (by simp [listingWorkspace]), hplace, Files.text, hfile]
    simp only [Text.ofFile?_encode (Json.not_mem_pretty hexact), String.ofList_toList]
  delta Config.project
  simp only [htext, hread]
  rfl

theorem load_listingWorkspace : Config.load listingWorkspace = .ok .default := by
  rfl

theorem canSave_listingWorkspace : Config.CanSave listingWorkspace :=
  (Config.canSave_iff []).2 (by decide)

/-- The project file serves one version and the new source the other one. -/
theorem source_takes_effect_beta :
    ∃ before w' after, Config.effective listingWorkspace none none = .ok before ∧
      before.registry.Serves "Beta" "b.yaml" ∧
      Config.setSource "V1.0" "v.yaml" listingWorkspace = .ok w' ∧
      Config.effective w' none none = .ok after ∧
      after.registry.Serves "v1.0" "v.yaml" ∧ after.registry.Serves "beta" "b.yaml" := by
  have hbefore : Config.effective listingWorkspace none none = .ok _ :=
    Config.effective_eq load_listingWorkspace project_listingWorkspace
  have hdistinct : ((Entries.keys Config.default.sources).map Text.lower).Nodup := by
    show [Text.lower "v1.0", Text.lower "beta"].Nodup
    decide
  have hlong : Config.default.isWritable = true :=
    Config.isWritable_of_digits (by decide : 86400 < Number.tenTo 5) (by decide)
  obtain ⟨hlisted, -, hset⟩ := source_takes_effect load_listingWorkspace project_listingWorkspace
    hbefore rfl hdistinct (by simp [listingWorkspace])
  obtain ⟨hsaved, hdone⟩ := hset "V1.0" "v.yaml"
  obtain ⟨w', hw'⟩ := hsaved.2 ⟨hlong, canSave_listingWorkspace⟩
  obtain ⟨after, hafter, hnew, hother⟩ := hdone w' hw'
  have hbeta : ∀ v, Text.lower v = Text.lower "BETA" → Registry.Serves _ v "b.yaml" :=
    hlisted "BETA" "b.yaml" (by decide)
  exact ⟨_, w', after, hbefore, hbeta "Beta" (by decide), hw', hafter,
    hnew (by decide) "v1.0" (by decide),
    (hother "beta" (.inl (by decide)) "b.yaml").2 (hbeta "beta" (by decide))⟩

end Command

end ApiSnippets
