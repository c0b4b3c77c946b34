import ApiSnippets.Command.Markup
import ApiSnippets.Fault
import ApiSnippets.Files
import ApiSnippets.Schema.Cache
/-!
# Workspaces

Everything a command finds and leaves behind: the files, the working folder,
the environment, the standard input, the documents kept from earlier
downloads. What a server replies to a request is a function of the URL, and
what a terminal shows is one of the text; `downloads` lists the URLs that were
asked for.
-/

namespace ApiSnippets

/-- The reply to a request for a document. -/
inductive Reply where
  | response (status : Nat) (contentType : String) (content : Bytes)
  /-- There was no response, for a reason. -/
  | failure (reason : String)
  deriving DecidableEq, Repr

/-- What a command finds and leaves behind. -/
structure Workspace where
  files : Files
  /-- The working folder. -/
  folder : Place
  environment : List (String × String) := []
  /-- The home folders of the users, by name. -/
  users : List (String × String) := []
  /-- What is left of the standard input. -/
  input : Bytes := []
  network : String → Reply
  /-- What the terminal makes of tags. -/
  markup : Markup := some
  downloads : List String := []
  documents : Documents := []
  /-- The time, as it appears in file names. -/
  time : String := ""

namespace Workspace

/-! ## The environment -/

/-- The value of an environment variable that is not empty. -/
def setting? (w : Workspace) (name : String) : Option String :=
  (w.environment.lookup name).filter (· ≠ "")

/-- Whether the environment asks for texts without colours. -/
def isColourless (w : Workspace) : Bool :=
  (w.environment.lookup "NO_COLOR").isSome || w.environment.lookup "TERM" == some "dumb"

/-- The home folder. -/
def home (w : Workspace) : String :=
  (w.setting? "HOME").getD "/"

/-- A base folder: that of a variable, or one in the home folder. -/
def base (w : Workspace) (name otherwise : String) : String :=
  Files.tidy ((w.setting? name).getD (w.home ++ "/" ++ otherwise) ++ "/snipgen")

/-- The folder of the configuration. -/
def configFolder (w : Workspace) : String :=
  w.base "XDG_CONFIG_HOME" ".config"

/-- The folder of the document cache. -/
def cacheFolder (w : Workspace) : String :=
  w.base "XDG_CACHE_HOME" ".cache"

/-- The folder of everything else. -/
def dataFolder (w : Workspace) : String :=
  w.base "XDG_DATA_HOME" ".local/share"

/-- The users in the text of an account file. A line for each has fields
between colons: the first is the name, the sixth the home folder. -/
def usersOfText (s : String) : List (String × String) :=
  (Text.pieces '\n' s).filterMap fun line =>
    match Text.pieces ':' line with
    | name :: _ :: _ :: _ :: _ :: home :: _ => some (name, home)
    | _ => none

/-- The home folder of a user; no name stands for the one whose workspace it
is. -/
def homeOf (w : Workspace) (user : String) : Outcome String :=
  if Text.hasChar '\x00' user then .error (.defect .value)
  else
    match if user == "" then some w.home else w.users.lookup user with
    | some home => if Text.hasStart "~" home then .error (.defect .home) else .ok home
    | none => .error (.defect .home)

/-- A path with a home folder for the tilde, and the user named after it, in
front. -/
def expand (w : Workspace) (path : String) : Outcome String :=
  match Text.cutAt '/' path.toList with
  | ('~' :: user, rest) => do
    let home ← w.homeOf (String.ofList user)
    pure (home ++ String.ofList (rest.elim [] ('/' :: ·)))
  | _ => .ok path

/-! ## Files -/

/-- The place a path leads to from the working folder. -/
def locate (w : Workspace) (path : String) : Option Place :=
  w.files.locate w.folder path

/-- The text of the file at a path. -/
def text (w : Workspace) (path : String) : FileText :=
  match w.locate (Files.tidy path) with
  | some p => w.files.text p
  | none => .absent

/-- Whether a path is too long to be followed. -/
def isOverlong (w : Workspace) (path : String) : Bool :=
  !Text.hasChar '\x00' path && w.files.isOverlong w.folder path

/-- Whether a path leads to a folder. -/
def isFolder (w : Workspace) (path : String) : Bool :=
  match w.locate path with
  | some p => w.files.isFolder p
  | none => false

/-- The names in the folder at a path. -/
def names (w : Workspace) (path : String) : List String :=
  match w.locate path with
  | some p => w.files.names p
  | none => []

/-- The workspace after a file is written. -/
def write? (w : Workspace) (path : String) (bs : Bytes) : Option Workspace := do
  let p ← w.locate path
  let files ← w.files.write? p bs
  pure { w with files := files }

/-- The workspace with a folder. A folder of a path that does not exist yet is
found name by name. -/
def makeFolder? (w : Workspace) (path : String) : Option Workspace := do
  let names := (Text.pieces '/' path).filter (· ≠ "")
  let files ← w.files.makeFolder? ((if Text.hasStart "/" path then [] else w.folder) ++ names)
  pure { w with files := files }

/-- The workspace after a file is written in a folder that is made first. -/
def writeIn? (w : Workspace) (folder name : String) (bs : Bytes) : Option Workspace := do
  let w ← w.makeFolder? folder
  w.write? (folder ++ "/" ++ name) bs

/-- Whether the folders of the cache are there or can be made. -/
def canCache (w : Workspace) (c : Caching) : Bool :=
  (w.makeFolder? (if c.enabled then w.cacheFolder ++ "/documents" else w.cacheFolder)).isSome

/-! ## The standard input -/

/-- The text of the standard input, which is used up by reading it. -/
def readInput (w : Workspace) : FileText × Workspace :=
  let t :=
    match Text.ofFile? w.input with
    | some s => .text s
    | none => .garbled
  (t, { w with input := [] })

end Workspace

end ApiSnippets
