import ApiSnippets.Command.Arguments
import ApiSnippets.Command.Console
/-!
# Invocations

What a command line asks for: one of the commands with its arguments, and how
its results are to be given. A command line may also ask for a screen that
explains how the program is used, or be wrong, which gives such a screen too.
-/

namespace ApiSnippets

/-- A command with its arguments. -/
inductive Command where
  /-- The snippet for a request in a file or in the standard input. -/
  | generate (file language : Option String)
  /-- The snippets for every request in a folder. -/
  | batch (folder : String) (languages : Option String)
  | languages
  /-- How a request resolves. -/
  | inspect (file : Option String)
  | showConfig
  | setSource (version source : String)
  | setConfig (key value : String)
  | cacheStats
  | cacheClear
  deriving DecidableEq, Repr

/-- A command and the options that go with every command. -/
structure Invocation where
  command : Command
  style : ConsoleStyle := {}
  /-- Remarks without colours. -/
  colourless : Bool := false
  /-- The source that serves every version. -/
  index : Option String := none
  /-- The file for results. -/
  target : Option String := none
  deriving DecidableEq, Repr

/-- What a command line asks for. -/
inductive Asked where
  | run (i : Invocation)
  | version
  | help
  /-- The command line is wrong. -/
  | misuse
  deriving DecidableEq, Repr

namespace Invocation

/-! ## Options -/

/-- The option that asks for help. -/
def helpOption : OptionSpec := ⟨"--help", none, false⟩

/-- The options that go with every command. -/
def options : List OptionSpec :=
  [⟨"--version", none, false⟩, ⟨"--index", none, true⟩, ⟨"--json", none, false⟩,
    ⟨"--plain", none, false⟩, ⟨"--no-color", none, false⟩, ⟨"--quiet", some 'q', false⟩,
    ⟨"--verbose", some 'v', false⟩, ⟨"--output", some 'o', true⟩, helpOption]

/-- The option for a language. -/
def languageOption : OptionSpec := ⟨"--language", some 'l', true⟩

/-- The option for several languages. -/
def languagesOption : OptionSpec := ⟨"--languages", some 'l', true⟩

/-! ## Commands -/

/-- A command with a number of options and words: help when it is asked for,
and misuse when the words do not fit. -/
def leaf (specs : List OptionSpec) (args : List String)
    (make : Arguments → List String → Option Command) : Except Asked Command :=
  match Arguments.parse (helpOption :: specs) false args with
  | none => .error .misuse
  | some a =>
    if a.has "--help" then .error .help
    else
      match make a a.words with
      | some c => .ok c
      | none => .error .misuse

/-- A command with a fixed number of words and no options. -/
def bare (args : List String) (make : List String → Option Command) : Except Asked Command :=
  leaf [] args fun _ words => make words

/-- The word of a command that takes at most one, none when there are more. -/
def atMostOne : List String → Option (Option String)
  | [] => some none
  | [word] => some (some word)
  | _ => none

/-- The commands of the configuration group. -/
def configCommand (name : String) (args : List String) : Except Asked Command :=
  match name with
  | "show" => bare args fun words => if words.isEmpty then some .showConfig else none
  | "set-source" =>
    bare args fun words =>
      match words with
      | [version, source] => some (.setSource version source)
      | _ => none
  | "set" =>
    bare args fun words =>
      match words with
      | [key, value] => some (.setConfig key value)
      | _ => none
  | _ => .error .misuse

/-- The commands of the cache group. -/
def cacheCommand (name : String) (args : List String) : Except Asked Command :=
  match name with
  | "stats" => bare args fun words => if words.isEmpty then some .cacheStats else none
  | "clear" => bare args fun words => if words.isEmpty then some .cacheClear else none
  | _ => .error .misuse

/-- A command of a group. -/
def grouped (args : List String) (find : String → List String → Except Asked Command) :
    Except Asked Command :=
  match Arguments.parse [helpOption] true args with
  | none => .error .misuse
  | some a =>
    if a.has "--help" then .error .help
    else
      match a.words with
      | [] => .error .misuse
      | name :: args => find name args

/-- The command with a name. -/
def commandOf (name : String) (args : List String) : Except Asked Command :=
  match name with
  | "generate" =>
    leaf [languageOption] args fun a words =>
      (atMostOne words).map fun file => .generate file (a.value? "--language")
  | "batch" =>
    leaf [languagesOption] args fun a words =>
      match words with
      | [folder] => some (.batch folder (a.value? "--languages"))
      | _ => none
  | "languages" => bare args fun words => if words.isEmpty then some .languages else none
  | "inspect" => bare args fun words => (atMostOne words).map .inspect
  | "config" => grouped args configCommand
  | "cache" => grouped args cacheCommand
  | _ => .error .misuse

/-! ## Command lines -/

/-- The first of two options that is given. -/
def firstOf (a : Arguments) (names : List String) : Option String :=
  (a.given.map Prod.fst).find? names.contains

/-- The invocation of a command with the options that are given. -/
def withOptions (a : Arguments) (c : Command) : Invocation :=
  let target := (a.value? "--output").filter (· ≠ "")
  { command := c
    style := ⟨a.has "--json", a.has "--quiet", a.has "--verbose", target.isSome⟩
    colourless := a.has "--no-color"
    index := a.value? "--index"
    target := target }

/-- **What a command line asks for.** -/
def ofArguments (args : List String) : Asked :=
  match Arguments.parse options true args with
  | none => .misuse
  | some a =>
    match firstOf a ["--version", "--help"] with
    | some "--version" => .version
    | some _ => .help
    | none =>
      match a.words with
      | [] => .misuse
      | name :: rest =>
        match commandOf name rest with
        | .ok c => .run (withOptions a c)
        | .error asked => asked

end Invocation

end ApiSnippets
