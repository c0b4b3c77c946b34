import ApiSnippets.Command.Needs
import ApiSnippets.Command.Program
import Std.Time
/-!
# The command line

Gathers what a command needs into a workspace, runs the program on it, and
puts back what has changed. Nothing is decided here.
-/

namespace ApiSnippets

namespace Main

/-- The environment variables that have a meaning. -/
def variableNames : List String :=
  ["HOME", "XDG_CONFIG_HOME", "XDG_CACHE_HOME", "XDG_DATA_HOME", "SNIPGEN_LANGUAGE", "SNIPGEN_INDEX",
    "NO_COLOR", "TERM"]

/-- The values of the environment variables that are set. -/
def environment : IO (List (String × String)) := do
  let mut found := []
  for name in variableNames do
    if let some value ← IO.getEnv name then
      found := (name, value) :: found
  return found

/-- Everything a stream still holds. -/
partial def drain (input : IO.FS.Stream) (before : ByteArray) : IO ByteArray := do
  let more ← input.read 65536
  if more.isEmpty then return before
  drain input (before ++ more)

/-- The octets of a file, none when it cannot be read. -/
def octets? (path : String) : IO (Option Bytes) := do
  try
    let bs ← IO.FS.readBinFile path
    return some bs.toList
  catch _ => return none

/-- The files with what is at a place: a file is read, a folder is noted with
the request files in it. -/
def gatherAt (f : Files) (p : Place) : IO Files := do
  let here ← IO.currentDir
  let path := Place.text p
  if ← (here / path).isDir then
    let mut f := { f with folders := p :: f.folders }
    for entry in ← (here / path).readDir do
      if Text.hasEnd Batch.requestSuffix entry.fileName then
        if let some bs ← octets? (path ++ "/" ++ entry.fileName) then
          f := { f with contents := Entries.put (p ++ [entry.fileName]) bs f.contents }
    return f
  else
    match ← octets? path with
    | some bs => return { f with contents := Entries.put p bs f.contents }
    | none => return f

/-- The workspace with what is on the way of a path. -/
def gather (w : Workspace) (path : String) : IO Workspace := do
  let mut files := w.files
  let mut p := if Text.hasStart "/" path then [] else w.folder
  for name in Text.pieces '/' (Files.tidy path) do
    p := if name == "" || name == "." then p else if name == ".." then p.dropLast else p ++ [name]
    files ← gatherAt files p
  return { w with files := files }

/-- The workspace with all that a command needs. What is read in one round may
name what is read in the next. -/
def gatherAll (i : Invocation) (w : Workspace) : IO Workspace := do
  let mut w := w
  for _ in [0, 1, 2] do
    for path in i.paths w do
      w ← gather w path
  if i.readsInput w then
    let input ← drain (← IO.getStdin) ByteArray.empty
    w := { w with input := input.toList }
  return w

/-- The changed files written. A file is complete before it takes its name. -/
def putBack (before after : Files) : IO Unit := do
  for (p, bs) in after.contents do
    if before.read? p != some bs then
      let path := Place.text p
      IO.FS.createDirAll (Place.text p.dropLast)
      IO.FS.writeBinFile (path ++ ".tmp") bs.toByteArray
      IO.FS.rename (path ++ ".tmp") path

/-- The workspace before anything is gathered. There is no network. -/
def start : IO Workspace := do
  let here := (← IO.currentDir).toString
  let time := (← Std.Time.PlainDateTime.now).format "uuuuMMdd-HHmmss"
  let folder := (Text.pieces '/' here).filter (· ≠ "")
  let accounts := (← octets? "/etc/passwd").getD []
  return { files := { folders := [folder] }, folder := folder, environment := ← environment,
           users := Workspace.usersOfText (String.ofList (Utf8.decodeLossy accounts)),
           network := fun _ => .failure "no network", markup := Markup.untagged, time := time }

end Main

end ApiSnippets

open ApiSnippets in
/-- The command line of the program. -/
def main (args : List String) : IO UInt32 := do
  let w ← Main.start
  let w ←
    match Invocation.ofArguments args with
    | .run i => Main.gatherAll i w
    | _ => pure w
  let e := Program.run args w
  Main.putBack w.files e.workspace.files
  IO.print e.console.output
  IO.eprint e.console.errors
  return e.exit.toUInt32
