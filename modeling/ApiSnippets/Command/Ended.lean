import ApiSnippets.Command.Console
import ApiSnippets.Fault
import ApiSnippets.Workspace
/-!
# How a command ends

The exit code, what was written, and the workspace that is left. A command
that meets a fault says so and ends with the code of the fault. A defect, and a
text that cannot be written, is noted in a log, and only the name of the log is
shown.
-/

namespace ApiSnippets

/-- How a command has ended. -/
structure Ended where
  exit : Nat
  console : Console
  workspace : Workspace
  /-- Whether what was written explains how the program is used. -/
  screen : Bool := false

/-- What to do about a fault. -/
def Fault.advice : Fault → Option String
  | language _ _ => some "Run 'snipgen languages' to list the supported languages."
  | version _ _ =>
    some "Pass --index, or run 'snipgen config set-source <version> <source>'."
  | _ => none

namespace Console

/-- A fault and what to do about it. -/
def fault (f : Fault) (c : Console) : Console :=
  match f.advice with
  | some advice => (c.error f.message).suggest advice
  | none => c.error f.message

end Console

namespace Workspace

/-- The folder of logs. -/
def logFolder (w : Workspace) : String :=
  w.dataFolder ++ "/logs"

/-- The name of a log that is written now. -/
def logName (w : Workspace) : String :=
  "crash-" ++ w.time ++ ".log"

/-- The workspace with a text in a file. -/
def deposit? (w : Workspace) (path : String) (d : Deposit) : Option Workspace :=
  let before := if d.afresh then none else (w.locate path).bind w.files.read?
  w.write? path (before.getD [] ++ Utf8.encode d.text.toList)

end Workspace

namespace Ended

/-- The end of a command in a defect. The name of the log is shown even on a
broken console. -/
def crash (c : Console) (w : Workspace) : Ended :=
  let log := Utf8.encode "A step had no meaning for the value it was given.\n".toList
  let c := { c with broken := false }
  let c := c.error ("Unexpected error. Debug log: " ++ w.logFolder ++ "/" ++ w.logName)
  ⟨1, { c with broken := true }, (w.writeIn? w.logFolder w.logName log).getD w, false⟩

/-- The end of a command with an exit code. A text that could not be written is
a defect. -/
def close (exit : Nat) (c : Console) (w : Workspace) : Ended :=
  if c.broken then crash c w else ⟨exit, c, w, false⟩

theorem close_of_whole {exit : Nat} {c : Console} {w : Workspace} (h : c.broken = false) :
    close exit c w = ⟨exit, c, w, false⟩ := by
  rw [close, h, if_neg Bool.false_ne_true]

/-- The end of a command that has done its work. -/
def well (c : Console) (w : Workspace) : Ended :=
  close 0 c w

/-- **The end of a command in a fault.** -/
def refuse (f : Fault) (c : Console) (w : Workspace) : Ended :=
  match f with
  | .defect _ => crash c w
  | f => close f.exitCode (c.fault f) w

/-- The end after results are put into their file. -/
def settle (target : Option String) (e : Ended) : Ended :=
  match target, e.console.deposit with
  | some path, some d =>
    match e.workspace.deposit? path d with
    | some w => { e with workspace := w }
    | none => if e.console.broken then e else crash e.console e.workspace
  | _, _ => e

end Ended

end ApiSnippets
