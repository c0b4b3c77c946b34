import ApiSnippets.Command.Batch
/-!
# What a command needs

The files a command may read, and whether it reads the standard input. Some
of them are named in others, such as the description in the configuration, so
the answer grows with what is known already.
-/

namespace ApiSnippets

namespace Invocation

/-- The sources a command may load, as far as the configuration is known. -/
def sources (i : Invocation) (w : Workspace) : List Source :=
  let named :=
    match Config.effective w none i.index with
    | .ok c =>
      match c.override.filter (· ≠ "") with
      | some source => [source]
      | none => c.sources.values
    | .error _ => i.index.toList
  named.map Source.ofText

/-- The request files a command reads, and whether it loads descriptions. -/
def requests (i : Invocation) (w : Workspace) : List String × Bool :=
  match i.command with
  | .generate file _ => (file.toList, true)
  | .inspect file => (file.toList, true)
  | .batch folder _ =>
    (folder :: (Batch.requestFiles w folder).map fun name => folder ++ "/" ++ name, true)
  | _ => ([], false)

/-- **The paths a command may read**, as far as they are known. -/
def paths (i : Invocation) (w : Workspace) : List String :=
  let (files, loads) := i.requests w
  let described :=
    if loads then
      (i.sources w).filterMap fun s =>
        match s with
        | .file path => (w.expand (Files.tidy path)).toOption
        | _ => none
    else []
  [Config.path w, Config.projectPath w, w.cacheFolder ++ "/documents"] ++ i.target.toList ++ files ++
    described

/-- Whether a command may read the standard input. -/
def readsInput (i : Invocation) (w : Workspace) : Bool :=
  let described := (i.requests w).2 && (i.sources w).contains .input
  match i.command with
  | .generate file _ => file.all (· == "-") || described
  | .inspect file => file.all (· == "-") || described
  | _ => described

end Invocation

end ApiSnippets
