import ApiSnippets.Proofs.Files
import ApiSnippets.Proofs.Json
import ApiSnippets.Settings.Effective
/-!
# Configurations read back

A configuration that is saved is the one that is loaded afterwards, with its
sources in their order, and saving it again writes the same octets
(`Config.load_save`). The one thing that no file can hold is a longer integer
than is written: nothing is saved then (`Config.save_of_not_isWritable`).
-/

namespace ApiSnippets

namespace Utf8

/-- **The octets of a text are read as that text.** -/
theorem decode?_encode (cs : List Char) : decode? (encode cs) = some (String.ofList cs) := by
  have hbytes : (⟨(encode cs).toArray⟩ : ByteArray) = (String.ofList cs).toByteArray := by
    rw [String.toByteArray_ofList, List.utf8Encode, ByteArray.ext_iff, List.data_toByteArray]
    rfl
  rw [decode?, String.fromUTF8?, hbytes, dif_pos (String.ofList cs).isValidUTF8,
    Option.some.injEq, ← String.toByteArray_inj]
  rfl

end Utf8

theorem Text.ofFile?_encode {cs : List Char} (h : '\r' ∉ cs) :
    Text.ofFile? (Utf8.encode cs) = some (String.ofList cs) := by
  rw [ofFile?, Utf8.decode?_encode, Option.map_some, String.toList_ofList,
    unifyBreaks_of_not_mem cs h]

namespace Config

variable {c : Config} {w w' : Workspace} {p : Place}

/-! ## Values -/

/-- No version has two sources. -/
def IsTable (c : Config) : Prop :=
  (Entries.keys c.sources).Nodup

theorem isWritable_of_digits {digits : Nat} (h : c.caching.lifetime.natAbs < Number.tenTo digits)
    (hdigits : digits ≤ Number.maxDigits) : c.isWritable = true := by
  have hmono : ∀ {n}, digits ≤ n → Number.tenTo digits ≤ Number.tenTo n :=
    fun h => Nat.pow_le_pow_right (by decide) h
  exact decide_eq_true (Nat.lt_of_lt_of_le h (hmono hdigits))

theorem isExact_toJson (hc : c.IsTable) (hlong : c.isWritable = true) : c.toJson.IsExact := by
  have hsources : (Json.obj (c.sources.map fun p => (p.1, .str p.2))).IsExact := by
    refine .obj ?_ fun p hp => ?_
    · simpa [IsTable, Entries.keys, Function.comp_def] using hc
    · obtain ⟨q, -, rfl⟩ := List.mem_map.1 hp
      exact .str q.2
  have hoverride : (optional c.override).IsExact := by
    cases c.override with
    | none => exact .null
    | some s => exact .str s
  have hlifetime : (Json.int c.caching.lifetime).IsExact :=
    .int (by simpa [isWritable] using hlong)
  have hcache : (Json.obj [("enabled", .bool c.caching.enabled),
      ("ttl_seconds", .int c.caching.lifetime)]).IsExact :=
    .obj (by simp [Entries.keys]) (by simp [Json.IsExact.bool, hlifetime])
  have hformat : (Json.obj [("format", .str c.format)]).IsExact :=
    .obj (by simp [Entries.keys]) (by simp [Json.IsExact.str])
  refine .obj (by simp [Entries.keys]) ?_
  simp [hsources, hoverride, Json.IsExact.str, hformat, hcache]

theorem sourcesOf?_map (sources : Entries String String) :
    sourcesOf? (.obj (sources.map fun p => (p.1, .str p.2))) = some sources := by
  rw [sourcesOf?]
  induction sources with
  | nil => rfl
  | cons p sources ih =>
    rw [List.map_cons, List.mapM_cons, ih]
    rfl

theorem optionalOf?_optional (s : Option String) : optionalOf? (optional s) = some s := by
  cases s <;> rfl

theorem cachingOf?_obj (caching : Caching) :
    cachingOf? (.obj [("enabled", .bool caching.enabled), ("ttl_seconds", .int caching.lifetime)]) =
      some caching :=
  rfl

/-- **The settings are found again in the object that is written for them.** -/
theorem ofJson?_toJson (c : Config) : ofJson? c.toJson = some c := by
  have hformat : formatOf? (.obj [("format", .str c.format)]) = some c.format := rfl
  simp [ofJson?, toJson, member, List.lookup_cons, sourcesOf?_map, optionalOf?_optional, textOf?,
    Json.text?, hformat, cachingOf?_obj]

/-! ## Texts -/

theorem read_text (path : String) (hc : c.IsTable) (hlong : c.isWritable = true) :
    read path c.text = .ok c := by
  have hbreak : Json.Reader.IsGap ['\n'] := by
    simp [Json.Reader.IsGap, Json.Reader.isGap]
  have htext : c.text = String.ofList
      ((Json.writeAt (.indented Text.asciiQuoted) 0 c.toJson).toList ++ ['\n']) := by
    rw [text, Json.pretty, ← String.toList_inj]
    simp
  rw [read, htext, Json.read_writeAt Json.readable_indented (isExact_toJson hc hlong) 0 hbreak]
  simp only [ofJson?_toJson]

theorem ofFile?_text (hc : c.IsTable) (hlong : c.isWritable = true) :
    Text.ofFile? (Utf8.encode c.text.toList) = some c.text := by
  rw [Text.ofFile?_encode, String.ofList_toList]
  intro hreturn
  rw [text, String.toList_append, List.mem_append] at hreturn
  rcases hreturn with hreturn | hreturn
  · exact Json.not_mem_pretty (isExact_toJson hc hlong) hreturn
  · simp at hreturn

/-! ## Files -/

/-- The configuration can be saved: its folder can be made, and its file put
into it. -/
def CanSave (w : Workspace) : Prop :=
  ∃ made, w.makeFolder? w.configFolder = some made ∧ made.CanWrite (path w)

theorem canSave_iff (bs : Bytes) :
    CanSave w ↔ (w.writeIn? w.configFolder fileName bs).isSome = true := by
  rw [Workspace.writeIn?]
  cases hmade : w.makeFolder? w.configFolder with
  | none => simp [CanSave, hmade]
  | some made => simpa [CanSave, hmade, path] using Workspace.isSome_write?_iff.symm

/-- A file that is written changes nothing but the files. -/
theorem exists_files_of_writeIn? {folder name : String} {bs : Bytes}
    (h : w.writeIn? folder name bs = some w') : ∃ files, w' = { w with files := files } := by
  rw [Workspace.writeIn?, Option.bind_eq_bind, Option.bind_eq_some_iff] at h
  obtain ⟨made, hmade, hwrite⟩ := h
  obtain ⟨files, -, rfl⟩ := Workspace.makeFolder?_eq_some.1 hmade
  obtain ⟨p, files, -, -, rfl⟩ := Workspace.write?_eq_some.1 hwrite
  exact ⟨files, rfl⟩

/-- A workspace in which a file was written has its configuration in the same
place. -/
theorem configFolder_of_writeIn? {folder name : String} {bs : Bytes}
    (h : w.writeIn? folder name bs = some w') : w'.configFolder = w.configFolder := by
  obtain ⟨files, rfl⟩ := exists_files_of_writeIn? h
  rfl

theorem text_of_writeIn? {bs : Bytes} (h : w.writeIn? w.configFolder fileName bs = some w') :
    w'.text (path w) = (Text.ofFile? bs).elim .garbled .text := by
  rw [Workspace.writeIn?, Option.bind_eq_bind, Option.bind_eq_some_iff] at h
  obtain ⟨made, -, hwrite⟩ := h
  exact Workspace.text_of_write?_self hwrite

theorem save_eq_ok (hlong : c.isWritable = true) :
    save c w = .ok w' ↔
      w.writeIn? w.configFolder fileName (Utf8.encode c.text.toList) = some w' := by
  rw [save, hlong]
  cases w.writeIn? w.configFolder fileName (Utf8.encode c.text.toList) <;> simp

/-- **A configuration is saved** exactly when its integer is not too long and
its file can be written. -/
theorem exists_save_iff : (∃ w', save c w = .ok w') ↔ c.isWritable = true ∧ CanSave w := by
  rw [canSave_iff (Utf8.encode c.text.toList), Option.isSome_iff_exists]
  cases hlong : c.isWritable with
  | true => simp only [save_eq_ok hlong, true_and]
  | false =>
    simp only [Bool.false_eq_true, false_and, iff_false]
    rintro ⟨w', h⟩
    rw [save, hlong] at h
    split at h
    · cases h
    · next hfolder =>
      -- where no folder can be made, no file is written into it
      have hnone : w.makeFolder? w.configFolder = none := by simpa using hfolder
      simp [Workspace.writeIn?, hnone] at h

theorem load_of_writeIn? (hc : c.IsTable) (hlong : c.isWritable = true)
    (h : w.writeIn? w.configFolder fileName (Utf8.encode c.text.toList) = some w') :
    load w' = .ok c := by
  obtain ⟨hfolder, -⟩ := Workspace.exists_writeIn?_of_writeIn? h
  have hplace := configFolder_of_writeIn? h
  have htext : w'.text (path w') = .text c.text := by
    rw [path, hplace]
    exact (text_of_writeIn? h).trans (by rw [ofFile?_text hc hlong]; rfl)
  rw [load, hplace, if_neg (by simpa using Option.isSome_iff_ne_none.1 hfolder), htext]
  exact read_text _ hc hlong

/-- A place that the path of the configuration file leads to, once there are
folders on the way. -/
def IsPlace (w : Workspace) (p : Place) : Prop :=
  ∃ files : Files, files.locate w.folder (path w) = some p

theorem IsPlace.exists_folder (h : IsPlace w p) : ∃ d, p = d ++ [fileName] := by
  obtain ⟨files, h⟩ := h
  have hname : Files.IsEntry fileName := by
    refine ⟨?_, ?_, ?_, ?_⟩ <;> decide
  exact Files.locate_of_pieces hname (Files.pieces_append _ hname.1) h

/-- A configuration that is saved changes the file at its path only. -/
theorem read?_of_save (h : save c w = .ok w') (hp : ¬ IsPlace w p) :
    w'.files.read? p = w.files.read? p := by
  obtain ⟨hlong, -⟩ := exists_save_iff.1 ⟨w', h⟩
  have hwrite := (save_eq_ok hlong).1 h
  rw [Workspace.writeIn?, Option.bind_eq_bind, Option.bind_eq_some_iff] at hwrite
  obtain ⟨made, hmade, hwrite⟩ := hwrite
  obtain ⟨q, files, hq, hfiles, rfl⟩ := Workspace.write?_eq_some.1 hwrite
  have hfolder : made.folder = w.folder := by
    obtain ⟨_, -, rfl⟩ := Workspace.makeFolder?_eq_some.1 hmade
    rfl
  have hne : p ≠ q := by
    rintro rfl
    exact hp ⟨made.files, hfolder ▸ hq⟩
  rw [Files.read?_of_write? hfiles, if_neg hne, Workspace.read?_of_makeFolder? hmade]

/-- A configuration that is saved changes nothing but the files. -/
theorem exists_files_of_save (h : save c w = .ok w') : ∃ files, w' = { w with files := files } := by
  obtain ⟨hlong, -⟩ := exists_save_iff.1 ⟨w', h⟩
  exact exists_files_of_writeIn? ((save_eq_ok hlong).1 h)

theorem load_of_save (hc : c.IsTable) (h : save c w = .ok w') : load w' = .ok c := by
  obtain ⟨hlong, -⟩ := exists_save_iff.1 ⟨w', h⟩
  exact load_of_writeIn? hc hlong ((save_eq_ok hlong).1 h)

/-- **A configuration is loaded as it was saved**, with its sources in their
order, and saving it again leaves the octets of every file as they are. -/
theorem load_save (hc : c.IsTable) (hlong : c.isWritable = true) (hw : CanSave w) :
    ∃ w', save c w = .ok w' ∧ load w' = .ok c ∧
      ∃ w'', save c w' = .ok w'' ∧ w''.files.contents = w'.files.contents := by
  obtain ⟨w', hw'⟩ := Option.isSome_iff_exists.1 ((canSave_iff (Utf8.encode c.text.toList)).1 hw)
  obtain ⟨-, w'', hw'', hcontents⟩ := Workspace.exists_writeIn?_of_writeIn? hw'
  have hplace := configFolder_of_writeIn? hw'
  exact ⟨w', (save_eq_ok hlong).2 hw', load_of_writeIn? hc hlong hw', w'',
    (save_eq_ok hlong).2 (by rw [hplace, hw'']), hcontents⟩

/-- A workspace without files. -/
def emptyWorkspace : Workspace where
  files := {}
  folder := []
  network := fun _ => .failure "unreachable"

theorem canSave_emptyWorkspace : CanSave emptyWorkspace :=
  (canSave_iff []).2 (by decide)

/-- Quotes, control characters and characters beyond ASCII, in an order that
is not the alphabet's. -/
def awkwardConfig : Config where
  sources := [("v1.0", "C:\\\"a\"\n\t"), ("beta", "\u0001\r\u007f"), ("", "é\u2028𝄞")]
  override := some ""
  language := "null"
  caching := ⟨false, -86400⟩

theorem load_save_awkwardConfig : awkwardConfig.IsTable ∧ awkwardConfig.isWritable = true ∧
    CanSave emptyWorkspace ∧
    ∃ w', save awkwardConfig emptyWorkspace = .ok w' ∧ load w' = .ok awkwardConfig := by
  have htable : awkwardConfig.IsTable := by
    simp [IsTable, awkwardConfig, Entries.keys]
  have hlong : awkwardConfig.isWritable = true :=
    isWritable_of_digits (by decide : 86400 < Number.tenTo 5) (by decide)
  obtain ⟨w', hsave, hload, -⟩ := load_save htable hlong canSave_emptyWorkspace
  exact ⟨htable, hlong, canSave_emptyWorkspace, w', hsave, hload⟩

/-- Nothing is saved when an integer is too long to be written. -/
theorem save_of_not_isWritable (hlong : c.isWritable = false) (hw : CanSave w) :
    save c w = .error (.defect .value) := by
  obtain ⟨made, hmade, -⟩ := hw
  rw [save, hlong, hmade]
  rfl

/-- A lifetime of one more digit than is written. -/
def longConfig : Config where
  sources := []
  caching := ⟨true, Number.tenTo Number.maxDigits⟩

theorem not_save_longConfig : longConfig.IsTable ∧ CanSave emptyWorkspace ∧
    save longConfig emptyWorkspace = .error (.defect .value) := by
  have hlong : longConfig.isWritable = false := by
    simp only [isWritable, longConfig, Int.natAbs_natCast, Nat.lt_irrefl, decide_false]
  exact ⟨List.nodup_nil, canSave_emptyWorkspace,
    save_of_not_isWritable hlong canSave_emptyWorkspace⟩

end Config

end ApiSnippets
