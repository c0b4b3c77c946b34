import ApiSnippets.Text.Cut
/-!
# Arguments of a command line

Options and words. An option has a long name, and perhaps a letter; its value
is the next argument, or stands behind an equals sign or behind the letter.
Letters may share one dash. After a lone double dash everything is a word.
-/

namespace ApiSnippets

/-- An option of a command. -/
structure OptionSpec where
  /-- The long name with its dashes. -/
  name : String
  letter : Option Char := none
  takesValue : Bool := false
  deriving DecidableEq, Repr

/-- The options that are given, in order, and the words. An option that takes
no value is given with an empty one. -/
structure Arguments where
  given : List (String × String) := []
  words : List String := []
  deriving DecidableEq, Repr

namespace Arguments

/-- The value an option is given last. -/
def value? (a : Arguments) (name : String) : Option String :=
  a.given.reverse.lookup name

/-- Whether an option is given. -/
def has (a : Arguments) (name : String) : Bool :=
  (a.value? name).isSome

/-! ## One argument -/

/-- What an argument gives, and the option whose value is still to come. -/
structure Reading where
  given : List (String × String)
  wanting : Option String := none

/-- Whether an argument is an option: a dash and something behind it. -/
def isOption (arg : String) : Bool :=
  match arg.toList with
  | '-' :: _ :: _ => true
  | _ => false

/-- The options of letters behind one dash. -/
def readLetters (specs : List OptionSpec) : List Char → Option Reading
  | [] => some ⟨[], none⟩
  | c :: cs =>
    match specs.find? fun o => o.letter == some c with
    | none => none
    | some o =>
      if !o.takesValue then
        (readLetters specs cs).map fun r => { r with given := (o.name, "") :: r.given }
      else if cs.isEmpty then some ⟨[], some o.name⟩
      else some ⟨[(o.name, String.ofList cs)], none⟩

/-- The option with a long name and, behind an equals sign, a value. -/
def readLong (specs : List OptionSpec) (arg : String) : Option Reading :=
  let (name, value) := Text.cutAt '=' arg.toList
  match specs.find? fun o => o.name.toList == name with
  | none => none
  | some o =>
    match o.takesValue, value with
    | true, some v => some ⟨[(o.name, String.ofList v)], none⟩
    | true, none => some ⟨[], some o.name⟩
    | false, none => some ⟨[(o.name, "")], none⟩
    | false, some _ => none

/-- What an argument that is an option gives. -/
def readOption (specs : List OptionSpec) (arg : String) : Option Reading :=
  if Text.hasStart "--" arg then readLong specs arg else readLetters specs (arg.toList.drop 1)

/-! ## All arguments -/

/-- Options in front of others. -/
def giving (given : List (String × String)) (a : Arguments) : Arguments :=
  { a with given := given ++ a.given }

/-- **The options and words of arguments**, none when an option is unknown or
lacks its value. With `leading` set options come before the first word only;
that word and what follows it are left as they are. -/
def parse (specs : List OptionSpec) (leading : Bool) : List String → Option Arguments
  | [] => some {}
  | arg :: rest =>
    if arg == "--" then some { words := rest }
    else if isOption arg then
      match readOption specs arg with
      | none => none
      | some ⟨given, none⟩ => (parse specs leading rest).map (giving given)
      | some ⟨given, some name⟩ =>
        match rest with
        | [] => none
        | value :: rest => (parse specs leading rest).map (giving (given ++ [(name, value)]))
    else if leading then some { words := arg :: rest }
    else (parse specs leading rest).map fun a => { a with words := arg :: a.words }

end Arguments

end ApiSnippets
