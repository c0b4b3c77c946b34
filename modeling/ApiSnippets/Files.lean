import ApiSnippets.Entries
import ApiSnippets.Text.Cut
import ApiSnippets.Text.LineBreak
/-!
# File trees

Files and folders below one root. A `Place` is the way to a file or folder
from the root, name by name; a path is a text that is followed from some
folder (`Files.locate`). The folders on the way to a file need no entry of
their own.
-/

namespace ApiSnippets

/-- The names on the way from the root. -/
abbrev Place := List String

/-- A path that starts at the root. -/
def Place.text (p : Place) : String :=
  "/" ++ String.intercalate "/" p

/-- What reading a text file gives. -/
inductive FileText where
  | absent
  /-- The octets are not UTF-8. -/
  | garbled
  | text (s : String)
  deriving DecidableEq, Repr

/-- The octets of files, and the folders that exist whatever is in them. -/
structure Files where
  contents : Entries Place Bytes := []
  folders : List Place := []

namespace Files

/-! ## Looking -/

/-- Whether a place is a folder. -/
def isFolder (f : Files) (p : Place) : Bool :=
  p.isEmpty || f.folders.any (p.isPrefixOf ·) ||
    f.contents.any fun e => p.isPrefixOf e.1 && p != e.1

/-- The octets of the file at a place. -/
def read? (f : Files) (p : Place) : Option Bytes :=
  f.contents.get? p

/-- The text of the file at a place. -/
def text (f : Files) (p : Place) : FileText :=
  match f.read? p with
  | none => .absent
  | some bs =>
    match Text.ofFile? bs with
    | some s => .text s
    | none => .garbled

/-- Whether a name is too long for a file. -/
def isLong (name : String) : Bool :=
  decide (255 < name.utf8ByteSize)

/-- Whether a file may have a name. -/
def isName (name : String) : Bool :=
  !isLong name && !Text.hasChar '\x00' name

/-- The names in a folder, each once. -/
def names (f : Files) (p : Place) : List String :=
  ((f.folders ++ f.contents.keys).filterMap fun q =>
    if p.isPrefixOf q then (q.drop p.length).head? else none).eraseDups

/-! ## Paths -/

/-- The place of a name in a folder. The name may also stand for the folder
itself or for the one that holds it. -/
def enter (f : Files) (p : Place) (name : String) : Option Place :=
  if !f.isFolder p then none
  else if name == "" || name == "." then some p
  else if name == ".." then some p.dropLast
  else some (p ++ [name])

/-- **The place a path leads to** from a folder. Every place on the way has to
be a folder; at the end there may be nothing. -/
def locate (f : Files) (start : Place) (path : String) : Option Place :=
  (Text.pieces '/' path).foldlM f.enter (if Text.hasStart "/" path then [] else start)

/-- Whether following names from a place meets one that is too long. A name is
looked up in folders only. -/
def meetsLong (f : Files) : Place → List String → Bool
  | _, [] => false
  | p, name :: names =>
    f.isFolder p && (isLong name || (f.enter p name).any fun q => f.meetsLong q names)

/-- Whether a path is too long to be followed from a folder. -/
def isOverlong (f : Files) (start : Place) (path : String) : Bool :=
  decide (4096 ≤ path.utf8ByteSize) ||
    f.meetsLong (if Text.hasStart "/" path then [] else start) (Text.pieces '/' path)

/-- A path without empty names and names that stand for the folder they are
in. -/
def tidy (path : String) : String :=
  let names := (Text.pieces '/' path).filter fun n => n != "" && n != "."
  if Text.hasStart "/" path then Place.text names
  else if names.isEmpty then "."
  else String.intercalate "/" names

/-- The last name of a path. -/
def fileName (path : String) : String :=
  String.ofList (Text.afterLast '/' (tidy path).toList)

/-- The part of a file name from its last dot, unless the name begins or ends
with that dot. -/
def suffix (path : String) : String :=
  let name := (fileName path).toList
  let ending := Text.afterLast '.' name
  let stem := Text.beforeLast '.' name
  if stem.isEmpty || ending.isEmpty then "" else String.ofList ('.' :: ending)

/-! ## Changing -/

/-- The tree with a file: its folder has to exist, and no folder may be in its
place. -/
def write? (f : Files) (p : Place) (bs : Bytes) : Option Files :=
  if p.isEmpty || !p.all isName || f.isFolder p || !f.isFolder p.dropLast then none
  else some { f with contents := Entries.put p bs f.contents }

/-- The tree with a folder and the folders on the way to it; no file may be in
the way. -/
def makeFolder? (f : Files) (p : Place) : Option Files :=
  if !p.all isName || f.contents.any fun e => e.1.isPrefixOf p then none
  else some { f with folders := p :: f.folders }

end Files

end ApiSnippets
