import ApiSnippets.Proofs.Json.Names
import ApiSnippets.Proofs.Settings.Config
import ApiSnippets.Settings.Setting
/-!
# Settings as places of a configuration

A key with dots in it is a way into the object that is written for a
configuration, and a setting is a value at its end that is no object itself. A
text is assigned to a setting by putting a value of the same kind in its place;
everything else in the object stays (`Setting.assignAt_eq_ok`).
-/

namespace ApiSnippets

namespace Json

/-! ## Places -/

/-- The value that a way of names leads to, from object to object. -/
def at? : Json → List String → Option Json
  | v, [] => some v
  | .obj members, name :: names => (members.lookup name).bind fun v => v.at? names
  | _, _ :: _ => none

/-- The value with another one where a way of names leads to. -/
def replaceAt : Json → List String → Json → Json
  | _, [], new => new
  | .obj members, name :: names, new =>
    .obj (members.map fun p => if p.1 = name then (p.1, p.2.replaceAt names new) else p)
  | v, _ :: _, _ => v

/-- Whether a value has members. -/
def isObject : Json → Bool
  | .obj _ => true
  | _ => false

variable {names : List String} {name : String} {members : List (String × Json)} {v w : Json}

theorem at?_of_not_isObject (hv : v.isObject = false) (h : v.at? names = some w) : names = [] := by
  cases names with
  | nil => rfl
  | cons name names =>
    cases v with
    | obj members => cases hv
    | _ => cases h

theorem at?_cons (h : at? (.obj members) (name :: names) = some w) :
    ∃ v, (name, v) ∈ members ∧ v.at? names = some w := by
  rw [at?, Option.bind_eq_some_iff] at h
  obtain ⟨v, hv, h⟩ := h
  exact ⟨v, Entries.mem_of_lookup hv, h⟩

/-- In an object without objects, a way has one name. -/
theorem at?_of_flat (hflat : ∀ p ∈ members, p.2.isObject = false) (hw : w.isObject = false)
    (h : at? (.obj members) names = some w) : ∃ name, names = [name] ∧ (name, w) ∈ members := by
  cases names with
  | nil =>
    obtain rfl := Option.some.inj h
    cases hw
  | cons name names =>
    obtain ⟨v, hv, h⟩ := at?_cons h
    obtain rfl := at?_of_not_isObject (hflat _ hv) h
    obtain rfl := Option.some.inj h
    exact ⟨name, rfl, hv⟩

end Json

namespace Entries

variable {α β γ : Type} [BEq α]

theorem lookup_map [LawfulBEq α] (f : α → β → γ) (es : Entries α β) (k : α) :
    (es.map fun e => (e.1, f e.1 e.2)).lookup k = (get? es k).map (f k) := by
  induction es with
  | nil => rfl
  | cons e es ih =>
    obtain ⟨k', w⟩ := e
    rw [List.map_cons, List.lookup_cons, get?, List.lookup_cons, ih]
    cases h : k == k' with
    | true => simp [eq_of_beq h]
    | false => rfl

/-- A value put under a key that is there changes that entry. -/
theorem put_eq_map [LawfulBEq α] [DecidableEq α] {key : α} {value : β} {es : Entries α β}
    (h : (keys es).Nodup) (hkey : key ∈ keys es) :
    put key value es = es.map fun e => if e.1 = key then (e.1, value) else e := by
  rcases put_cases key value es with ⟨before, k, w, after, rfl, hk, hput⟩ | ⟨hnew, -⟩
  · obtain rfl := eq_of_beq hk
    have hother : ∀ ds : Entries α β, key ∉ keys ds →
        ds.map (fun e => if e.1 = key then (e.1, value) else e) = ds := by
      intro ds hds
      refine (List.map_congr_left fun e he => if_neg fun hsame => ?_).trans (List.map_id' ds)
      exact hds (List.mem_map.2 ⟨e, he, hsame⟩)
    simp only [keys, List.map_append, List.map_cons, List.nodup_append, List.nodup_cons] at h
    have hbefore : key ∉ keys before := fun hmem => h.2.2 key hmem key List.mem_cons_self rfl
    rw [hput, List.map_append, List.map_cons, hother before hbefore, hother after h.2.1.1,
      if_pos rfl]
  · obtain ⟨e, he, rfl⟩ := List.mem_map.1 hkey
    simpa using hnew e he

end Entries

namespace Config

variable {c d : Config} {w : Workspace}

/-! ## Configurations that are loaded -/

theorem isTable_default : default.IsTable := by
  show ["v1.0", "beta"].Nodup
  decide

theorem keys_of_sourcesOf? {members : List (String × Json)} {sources : Entries String String}
    (h : sourcesOf? (.obj members) = some sources) :
    Entries.keys sources = Entries.keys members := by
  rw [sourcesOf?] at h
  induction members generalizing sources with
  | nil =>
    obtain rfl : [] = sources := by simpa using h
    rfl
  | cons p members ih =>
    simp only [List.mapM_cons, Option.bind_eq_bind, Option.bind_eq_some_iff,
      Option.map_eq_some_iff, Option.pure_def, Option.some.injEq] at h
    obtain ⟨_, ⟨s, -, rfl⟩, more, hmore, rfl⟩ := h
    exact congrArg (p.1 :: ·) (ih hmore)

theorem isTable_of_ofJson? {v : Json} (hv : v.NamesOnce) (h : ofJson? v = some c) : c.IsTable := by
  cases v with
  | obj members =>
    simp only [ofJson?, Option.bind_eq_bind, Option.bind_eq_some_iff, Option.pure_def,
      Option.some.injEq] at h
    obtain ⟨sources, hsources, _, -, _, -, _, -, _, -, rfl⟩ := h
    show (Entries.keys sources).Nodup
    rw [member] at hsources
    split at hsources
    · next inner hinner =>
      cases inner with
      | obj members =>
        rw [keys_of_sourcesOf? hsources]
        exact (hv.of_lookup hinner).keys
      | _ => cases hsources
    · obtain rfl := Option.some.inj hsources
      exact isTable_default
  | _ => cases h

/-- **A configuration that is loaded has one source for each version.** -/
theorem isTable_of_load (h : load w = .ok c) : c.IsTable := by
  unfold load at h
  split at h
  · cases h
  · split at h
    · obtain rfl := Except.ok.inj h
      exact isTable_default
    · cases h
    · unfold read at h
      split at h
      · next v hread =>
        split at h
        · next hv =>
          obtain rfl := Except.ok.inj h
          exact isTable_of_ofJson? (Json.namesOnce_of_read hread) hv
        · cases h
      · cases h
      · cases h

theorem toJson_inj (h : c.toJson = d.toJson) : c = d := by
  have hc := ofJson?_toJson c
  rw [h, ofJson?_toJson] at hc
  exact (Option.some.inj hc).symm

end Config

namespace Setting

variable {c d : Config} {key value : String} {s : Setting} {current new : Json}

/-! ## Settings and their ways -/

/-- The way to a setting. -/
def path : Setting → List String
  | source version => ["index_sources", version]
  | override => ["override_index"]
  | language => ["default_language"]
  | format => ["output", "format"]
  | enabled => ["cache", "enabled"]
  | lifetime => ["cache", "ttl_seconds"]

/-- The value of a setting, if the configuration has one. -/
def current? (c : Config) : Setting → Option Json
  | source version => (Entries.get? c.sources version).map .str
  | override => some (Config.optional c.override)
  | language => some (.str c.language)
  | format => some (.str c.format)
  | enabled => some (.bool c.caching.enabled)
  | lifetime => some (.int c.caching.lifetime)

theorem at?_path (c : Config) (s : Setting) : c.toJson.at? s.path = s.current? c := by
  cases s with
  | source version =>
    have hlookup := Entries.lookup_map (fun _ s => Json.str s) c.sources version
    simp [Config.toJson, path, current?, Json.at?, hlookup]
  | _ => rfl

/-- **A way to a value that is no object is the way to a setting.** -/
theorem exists_path_of_at? {names : List String} (hflat : current.isObject = false)
    (h : c.toJson.at? names = some current) : ∃ s : Setting, s.path = names := by
  cases names with
  | nil =>
    obtain rfl := Option.some.inj h
    cases hflat
  | cons name names =>
    obtain ⟨v, hv, h⟩ := Json.at?_cons h
    have hoverride : (Config.optional c.override).isObject = false := by
      cases c.override <;> rfl
    simp only [List.mem_cons, Prod.mk.injEq, List.not_mem_nil, or_false] at hv
    -- a case for each entry of a configuration, in the order of its text
    rcases hv with ⟨rfl, rfl⟩ | ⟨rfl, rfl⟩ | ⟨rfl, rfl⟩ | ⟨rfl, rfl⟩ | ⟨rfl, rfl⟩
    · have hsources : ∀ p ∈ c.sources.map fun p => (p.1, Json.str p.2), p.2.isObject = false := by
        intro p hp
        obtain ⟨_, -, rfl⟩ := List.mem_map.1 hp
        rfl
      obtain ⟨version, rfl, -⟩ := Json.at?_of_flat hsources hflat h
      exact ⟨source version, rfl⟩
    · obtain rfl := Json.at?_of_not_isObject hoverride h
      exact ⟨override, rfl⟩
    · obtain rfl := Json.at?_of_not_isObject rfl h
      exact ⟨language, rfl⟩
    · obtain ⟨last, rfl, hlast⟩ := Json.at?_of_flat (by simp [Json.isObject]) hflat h
      obtain ⟨rfl, -⟩ : last = "format" ∧ _ := by simpa using hlast
      exact ⟨format, rfl⟩
    · obtain ⟨last, rfl, hlast⟩ := Json.at?_of_flat (by simp [Json.isObject]) hflat h
      simp only [List.mem_cons, Prod.mk.injEq, List.not_mem_nil, or_false] at hlast
      rcases hlast with ⟨rfl, -⟩ | ⟨rfl, -⟩
      · exact ⟨enabled, rfl⟩
      · exact ⟨lifetime, rfl⟩

theorem isObject_of_current? (h : s.current? c = some current) : current.isObject = false := by
  cases s with
  | source version =>
    obtain ⟨_, -, rfl⟩ := Option.map_eq_some_iff.1 h
    rfl
  | override =>
    obtain rfl := Option.some.inj h
    cases c.override <;> rfl
  | _ =>
    obtain rfl := Option.some.inj h
    rfl

/-- The settings of a group are those whose ways go through it. -/
theorem path_of_lookup {group name : String} {settings : List (String × Setting)}
    (hgroup : group? c group = some settings) (h : settings.lookup name = some s) :
    s.path = [group, name] ∧ (s.current? c).isSome := by
  unfold group? at hgroup
  split at hgroup
  · obtain rfl := Option.some.inj hgroup
    rw [Entries.lookup_map fun version _ => source version] at h
    obtain ⟨_, hsource, rfl⟩ := Option.map_eq_some_iff.1 h
    exact ⟨rfl, by simp [current?, hsource]⟩
  · obtain rfl := Option.some.inj hgroup
    obtain ⟨rfl, rfl⟩ : name = "format" ∧ s = format := by simpa using Entries.mem_of_lookup h
    exact ⟨rfl, rfl⟩
  · obtain rfl := Option.some.inj hgroup
    have hmem := Entries.mem_of_lookup h
    simp only [List.mem_cons, Prod.mk.injEq, List.not_mem_nil, or_false] at hmem
    rcases hmem with ⟨rfl, rfl⟩ | ⟨rfl, rfl⟩
    · exact ⟨rfl, rfl⟩
    · exact ⟨rfl, rfl⟩
  · cases hgroup

/-- **A key names the setting whose way it is**, if the configuration has a
value there. -/
theorem find_eq_ok :
    find c key = .ok s ↔ Text.pieces '.' key = s.path ∧ (s.current? c).isSome := by
  unfold find
  constructor
  · intro h
    split at h
    -- one piece names a setting outside of the groups, two pieces one in a group
    · next name hpieces =>
      dsimp only at h
      split at h
      · next hlookup =>
        obtain rfl := Except.ok.inj h
        have hmem := Entries.mem_of_lookup hlookup
        simp only [single, List.mem_cons, Prod.mk.injEq, List.not_mem_nil, or_false] at hmem
        rcases hmem with ⟨rfl, rfl⟩ | ⟨rfl, rfl⟩
        · exact ⟨hpieces, rfl⟩
        · exact ⟨hpieces, rfl⟩
      · cases h
    · next group name hpieces =>
      split at h
      · next settings hgroup =>
        dsimp only at h
        split at h
        · next hlookup =>
          obtain rfl := Except.ok.inj h
          obtain ⟨hpath, hcurrent⟩ := path_of_lookup hgroup hlookup
          exact ⟨hpieces.trans hpath.symm, hcurrent⟩
        · cases h
      · cases h
    · cases h
  · rintro ⟨hpath, hcurrent⟩
    rw [hpath]
    cases s with
    | source version =>
      have hlookup := Entries.lookup_map (fun version _ => source version) c.sources version
      obtain ⟨_, hsource⟩ := Option.isSome_iff_exists.1 (Option.isSome_map.symm.trans hcurrent)
      rw [hsource] at hlookup
      simp [path, group?, hlookup]
    | _ => rfl

/-! ## Assignment -/

/-- The value a text stands for where another value is: a value of the same
kind, save that a language is named by its identifier. -/
def coerced? (key value : String) (current : Json) : Option Json :=
  if key = "default_language" then (Language.find value).toOption.map fun l => .str l.id
  else
    match current with
    | .bool _ => some (.bool (truth value))
    | .int _ => (Number.lenientInteger? value.toList).map .int
    | _ => some (.str value)

theorem key_eq_language_iff (hkey : Text.pieces '.' key = s.path) :
    key = "default_language" ↔ s = language := by
  constructor
  · rintro rfl
    have hpieces : Text.pieces '.' "default_language" = language.path := by decide
    cases s with
    | language => rfl
    | _ => exact absurd (hkey.symm.trans hpieces) (by simp [path])
  · rintro rfl
    obtain ⟨cs, hcs, hname⟩ := List.map_eq_singleton_iff.1 hkey
    rw [← String.ofList_toList (s := key), Text.eq_of_splitAll hcs, hname]

/-- A text that stands for a value where a setting is can be assigned to the
setting, and that value is put in its place. -/
theorem exists_assign (hc : c.IsTable) (hkey : Text.pieces '.' key = s.path)
    (hcurrent : s.current? c = some current) (hnew : coerced? key value current = some new) :
    ∃ d shown, assign c key value s = .ok (d, shown) ∧
      d.toJson = c.toJson.replaceAt s.path new := by
  have hlanguage := key_eq_language_iff hkey
  cases s with
  | source version =>
    obtain ⟨before, hbefore, rfl⟩ := Option.map_eq_some_iff.1 hcurrent
    obtain rfl : .str value = new := by simpa [coerced?, hlanguage] using hnew
    have hmem : version ∈ Entries.keys c.sources :=
      Entries.isSome_get?_iff.1 (Option.isSome_iff_exists.2 ⟨before, hbefore⟩)
    -- a version that has a source keeps its place among them
    have hsources : (Entries.put version value c.sources).map (fun p => (p.1, Json.str p.2)) =
        (c.sources.map fun p => (p.1, Json.str p.2)).map fun p =>
          if p.1 = version then (p.1, p.2.replaceAt [] (.str value)) else p := by
      rw [Entries.put_eq_map hc hmem, List.map_map, List.map_map]
      refine List.map_congr_left fun p _ => ?_
      simp only [Function.comp_apply, Json.replaceAt]
      split <;> rfl
    exact ⟨_, _, rfl, by simp [Config.toJson, path, Json.replaceAt, hsources, -List.map_map]⟩
  | override =>
    -- whether there was an override or not, a text takes its place
    have hplain : coerced? key value current = some (.str value) := by
      obtain rfl := Option.some.inj hcurrent
      cases c.override <;> simp [coerced?, hlanguage, Config.optional]
    obtain rfl := Option.some.inj (hplain.symm.trans hnew)
    exact ⟨_, _, rfl, by simp [Config.toJson, path, Json.replaceAt, Config.optional]⟩
  | language =>
    obtain ⟨l, hl, rfl⟩ : ∃ l, (Language.find value).toOption = some l ∧ .str l.id = new := by
      simpa [coerced?, hlanguage] using hnew
    cases hfind : Language.find value with
    | error e => simp [hfind, Except.toOption] at hl
    | ok found =>
      obtain rfl : found = l := by simpa [hfind, Except.toOption] using hl
      exact ⟨_, _, by unfold assign; rw [hfind], by simp [Config.toJson, path, Json.replaceAt]⟩
  | format =>
    obtain rfl := Option.some.inj hcurrent
    obtain rfl : .str value = new := by simpa [coerced?, hlanguage] using hnew
    exact ⟨_, _, rfl, by simp [Config.toJson, path, Json.replaceAt]⟩
  | enabled =>
    obtain rfl := Option.some.inj hcurrent
    obtain rfl : .bool (truth value) = new := by simpa [coerced?, hlanguage] using hnew
    exact ⟨_, _, rfl, by simp [Config.toJson, path, Json.replaceAt]⟩
  | lifetime =>
    obtain rfl := Option.some.inj hcurrent
    obtain ⟨n, hn, rfl⟩ : ∃ n, Number.lenientInteger? value.toList = some n ∧ .int n = new := by
      simpa [coerced?, hlanguage] using hnew
    exact ⟨_, _, by unfold assign; rw [hn], by simp [Config.toJson, path, Json.replaceAt]⟩

theorem exists_coerced?_of_assign (hkey : Text.pieces '.' key = s.path)
    (hcurrent : s.current? c = some current) {shown : String}
    (h : assign c key value s = .ok (d, shown)) : ∃ new, coerced? key value current = some new := by
  have hlanguage := key_eq_language_iff hkey
  cases s with
  | source version =>
    obtain ⟨_, -, rfl⟩ := Option.map_eq_some_iff.1 hcurrent
    simp [coerced?, hlanguage]
  | override =>
    obtain rfl := Option.some.inj hcurrent
    cases c.override <;> simp [coerced?, hlanguage, Config.optional]
  | language =>
    cases hfind : Language.find value with
    | error e =>
      unfold assign at h
      rw [hfind] at h
      cases h
    | ok l => exact ⟨.str l.id, by simp [coerced?, hlanguage, hfind, Except.toOption]⟩
  | lifetime =>
    obtain rfl := Option.some.inj hcurrent
    cases hn : Number.lenientInteger? value.toList with
    | none =>
      unfold assign at h
      rw [hn] at h
      cases h
    | some n => simp [coerced?, hlanguage, hn]
  | _ =>
    obtain rfl := Option.some.inj hcurrent
    simp [coerced?, hlanguage]

/-- A text is assigned to a setting exactly when it stands for a value there,
which is put in the place of the other one. -/
theorem assign_eq_ok (hc : c.IsTable) (hkey : Text.pieces '.' key = s.path)
    (hcurrent : s.current? c = some current) :
    (∃ shown, assign c key value s = .ok (d, shown)) ↔
      ∃ new, coerced? key value current = some new ∧ d.toJson = c.toJson.replaceAt s.path new := by
  constructor
  · rintro ⟨shown, h⟩
    obtain ⟨new, hnew⟩ := exists_coerced?_of_assign hkey hcurrent h
    obtain ⟨d', shown', h', hd'⟩ := exists_assign hc hkey hcurrent hnew
    obtain ⟨rfl, -⟩ := Prod.mk.inj (Except.ok.inj (h.symm.trans h'))
    exact ⟨new, hnew, hd'⟩
  · rintro ⟨new, hnew, hd⟩
    obtain ⟨d', shown, h, hd'⟩ := exists_assign hc hkey hcurrent hnew
    obtain rfl := Config.toJson_inj (hd.trans hd'.symm)
    exact ⟨shown, h⟩

theorem assignAt_of_find (h : find c key = .ok s) :
    assignAt c key value = assign c key value s := by
  simp [assignAt, h, bind, Except.bind]

/-- One configuration is another one with a text assigned to a key: where the
key leads to a value that is no object, there is what the text stands for, and
everything else is the same. -/
def Replaces (key value : String) (before after : Config) : Prop :=
  ∃ current new, before.toJson.at? (Text.pieces '.' key) = some current ∧
    current.isObject = false ∧ coerced? key value current = some new ∧
    after.toJson = before.toJson.replaceAt (Text.pieces '.' key) new

/-- **A text is assigned to the value a key leads to**, and to nothing else. -/
theorem assignAt_eq_ok (hc : c.IsTable) :
    (∃ shown, assignAt c key value = .ok (d, shown)) ↔ Replaces key value c d := by
  constructor
  · rintro ⟨shown, h⟩
    cases hs : find c key with
    | error e => simp [assignAt, hs, bind, Except.bind] at h
    | ok s =>
      obtain ⟨hkey, hsome⟩ := find_eq_ok.1 hs
      obtain ⟨current, hcurrent⟩ := Option.isSome_iff_exists.1 hsome
      rw [assignAt_of_find hs] at h
      obtain ⟨new, hnew, hd⟩ := (assign_eq_ok hc hkey hcurrent).1 ⟨shown, h⟩
      rw [Replaces, hkey]
      exact ⟨current, new, (at?_path c s).trans hcurrent, isObject_of_current? hcurrent, hnew, hd⟩
  · rintro ⟨current, new, hat, hflat, hnew, hd⟩
    obtain ⟨s, hs⟩ := exists_path_of_at? hflat hat
    have hcurrent : s.current? c = some current := by rwa [← at?_path, hs]
    rw [← hs] at hd
    obtain ⟨shown, h⟩ := (assign_eq_ok hc hs.symm hcurrent).2 ⟨new, hnew, hd⟩
    have hfind : find c key = .ok s := find_eq_ok.2 ⟨hs.symm, by simp [hcurrent]⟩
    exact ⟨shown, (assignAt_of_find hfind).trans h⟩

theorem isTable_of_assign (hc : c.IsTable) {shown : String}
    (h : assign c key value s = .ok (d, shown)) : d.IsTable := by
  unfold assign at h
  cases s with
  | source version =>
    obtain ⟨rfl, -⟩ := Prod.mk.inj (Except.ok.inj h)
    exact Entries.nodup_keys_put hc
  | language =>
    dsimp only at h
    split at h
    · obtain ⟨rfl, -⟩ := Prod.mk.inj (Except.ok.inj h)
      exact hc
    · cases h
  | lifetime =>
    dsimp only at h
    split at h
    · obtain ⟨rfl, -⟩ := Prod.mk.inj (Except.ok.inj h)
      exact hc
    · cases h
  | _ =>
    obtain ⟨rfl, -⟩ := Prod.mk.inj (Except.ok.inj h)
    exact hc

theorem Replaces.isTable (h : Replaces key value c d) (hc : c.IsTable) : d.IsTable := by
  obtain ⟨shown, h⟩ := (assignAt_eq_ok hc).2 h
  cases hs : find c key with
  | error e => simp [assignAt, hs, bind, Except.bind] at h
  | ok s => exact isTable_of_assign hc ((assignAt_of_find hs).symm.trans h)

end Setting

end ApiSnippets
