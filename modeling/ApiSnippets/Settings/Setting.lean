import ApiSnippets.Settings.Config
import ApiSnippets.Snippet
/-!
# Single settings

A setting is one value of a configuration, named by a dotted key. Assigning a
text to it (`Setting.assign`) reads the text as a value of the setting's kind
and changes nothing else.
-/

namespace ApiSnippets

/-- One value of a configuration. -/
inductive Setting where
  /-- The source of a version that has one. -/
  | source (version : String)
  | override
  | language
  | format
  | enabled
  | lifetime
  deriving DecidableEq, Repr

namespace Setting

/-! ## Keys -/

/-- The settings outside any group, by key. -/
def single : List (String × Setting) :=
  [("override_index", override), ("default_language", language)]

/-- The settings of a group, by the last part of the key. -/
def group? (c : Config) (name : String) : Option (List (String × Setting)) :=
  match name with
  | "index_sources" => some (c.sources.map fun p => (p.1, source p.1))
  | "output" => some [("format", format)]
  | "cache" => some [("enabled", enabled), ("ttl_seconds", lifetime)]
  | _ => none

/-- **The setting a key names** in a configuration. -/
def find (c : Config) (key : String) : Except SettingFault Setting :=
  let settings : Except SettingFault (List (String × Setting) × String) :=
    match Text.pieces '.' key with
    | [name] => .ok (single, name)
    | [group, name] =>
      match group? c group with
      | some settings => .ok (settings, name)
      | none => .error (.invalidKey key)
    | _ => .error (.invalidKey key)
  match settings with
  | .error e => .error e
  | .ok (settings, name) =>
    match settings.lookup name with
    | some s => .ok s
    | none => .error (.unknownKey key)

/-! ## Assignment -/

/-- The truth value of a text: a few words stand for true, all others for
false. -/
def truth (s : String) : Bool :=
  ["true", "1", "yes"].contains (Text.lower s)

/-- **The configuration after a text is assigned to a setting**, and the value
as it is shown. -/
def assign (c : Config) (key value : String) : Setting → Except SettingFault (Config × String)
  | source version => .ok ({ c with sources := Entries.put version value c.sources }, value)
  | override => .ok ({ c with override := some value }, value)
  | language =>
    match Language.find value with
    | .ok l => .ok ({ c with language := l.id }, l.id)
    | .error _ => .error (.language value Language.ids)
  | format => .ok ({ c with format := value }, value)
  | enabled =>
    let b := truth value
    .ok ({ c with caching := { c.caching with enabled := b } }, (Scalar.bool b).shown)
  | lifetime =>
    match Number.lenientInteger? value.toList with
    | some n => .ok ({ c with caching := { c.caching with lifetime := n } }, toString n)
    | none => .error (.notInteger key value)

/-- The configuration after a text is assigned to the setting a key names, and
the value as it is shown. -/
def assignAt (c : Config) (key value : String) : Except SettingFault (Config × String) := do
  let s ← find c key
  assign c key value s

end Setting

namespace Config

/-- The configuration with a source for a version, whose name is kept in lower
case. -/
def withSource (c : Config) (version source : String) : Config :=
  { c with sources := Entries.put (Text.lower version) source c.sources }

end Config

end ApiSnippets
