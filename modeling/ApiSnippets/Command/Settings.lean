import ApiSnippets.Command.Ended
import ApiSnippets.Settings.Effective
/-!
# Commands on settings and on the cache

`config show` shows the configuration in effect; `config set` and
`config set-source` change that of the user, and say so once it is written. The
file of a configuration is written once or not at all. The cache commands go by
the configuration of the user.
-/

namespace ApiSnippets

namespace Command

/-- The configuration in effect. -/
def runShowConfig (c : Console) (w : Workspace) : Ended :=
  match Config.effective w none none with
  | .error e => .refuse e c w
  | .ok config =>
    .well ((c.info ("Config directory: " ++ w.configFolder)).value config.toJson) w

/-- The end of a change of the configuration of the user. What it comes to is
said when it is made. -/
def changed (c : Console) (w : Workspace) : Outcome (Workspace × String) → Ended
  | .error e => .refuse e c w
  | .ok (w, remark) => .well (c.success remark) w

/-- The remark on a source that was set. -/
def sourceSet (version source : String) : String :=
  "Index source for " ++ Text.lower version ++ " = " ++ source

/-- The remark on a value that was set. -/
def valueSet (key shown : String) : String :=
  "Set " ++ key ++ " = " ++ shown

/-- A new source for a version. -/
def runSetSource (version source : String) (c : Console) (w : Workspace) : Ended :=
  changed c w ((Config.setSource version source w).map (·, sourceSet version source))

/-- **A new value for a setting.** -/
def runSetConfig (key value : String) (c : Console) (w : Workspace) : Ended :=
  changed c w ((Config.set key value w).map fun r => (r.1, valueSet key r.2))

/-- What there is to say about the cache. -/
def runCacheStats (c : Console) (w : Workspace) : Ended :=
  match Config.load w >>= (·.withCache w) with
  | .error e => .refuse e c w
  | .ok config => .well (c.value (config.caching.stats w.cacheFolder w.documents)) w

/-- All documents dropped from the cache. -/
def runCacheClear (c : Console) (w : Workspace) : Ended :=
  match Config.load w >>= (·.withCache w) with
  | .error e => .refuse e c w
  | .ok config =>
    .well (c.success "Document cache cleared.")
      { w with documents := config.caching.clear w.documents }

end Command

end ApiSnippets
