import ApiSnippets.Code.Imports
import ApiSnippets.Target.CSharp
import ApiSnippets.Target.CommandLine
import ApiSnippets.Target.Go
import ApiSnippets.Target.Java
import ApiSnippets.Target.Php
import ApiSnippets.Target.Python
import ApiSnippets.Target.TypeScript
/-!
# Snippets

A resolved request as a snippet. A snippet is a sequence of blocks with empty
lines between them: the comment at the top, the imports, the body, the
configuration, the call. It is written twice, since the imports depend on the
text that is written without them.
-/

namespace ApiSnippets

namespace Language

/-! ## The languages -/

/-- Every language, in the order in which they are presented. -/
def all : List Language :=
  [CSharp.language, Java.language, Python.language, Go.language, TypeScript.language, Php.language,
    CommandLine.language]

/-- The identifiers of the languages. -/
def ids : List String :=
  all.map (·.id)

/-- The identifiers of the languages and then their aliases. -/
def allIds : List String :=
  ids ++ all.flatMap (·.aliases)

/-- The language with an identifier or an alias, whatever its letter case. -/
def find (id : String) : Outcome Language :=
  let name := Text.lower (Text.stripped id)
  match all.find? fun l => l.id == name || l.aliases.contains name with
  | some l => .ok l
  | none => .error (.language id ids)

end Language

namespace Snippet

/-! ## Writing -/

/-- Methods whose operations take a body. -/
def takesBody (m : Method) : Bool :=
  m == .post || m == .put || m == .patch

/-- The lines that declare the body, and the argument for it. An operation
that wants a body gets a null value when there is none. -/
def bodyPart (l : Language) (r : ResolvedRequest) (body : Option BodyGraph) :
    Except Fault (List String × Option String) :=
  match body with
  | some g => l.bodyCode g r
  | none =>
    .ok ([], if r.operation.requestSchema.isSome && takesBody r.method then some l.dialect.null
      else none)

/-- The blocks with empty lines between them. -/
def ofBlocks (blocks : List (List String)) : String :=
  String.intercalate "\n\n" ((blocks.filter fun b => !b.isEmpty).map Language.joined) ++ "\n"

/-- The snippet for a request with its body and its imports. -/
def write (l : Language) (r : ResolvedRequest) (body : Option BodyGraph) (imports : List String) :
    Outcome String := do
  let (bodyLines, bodyArgument) ← bodyPart l r body
  let (lines, argument) := if r.hasConfiguration then l.configuration r else ([], none)
  let call := l.call (l.dialect.chain r.segments) (l.arguments bodyArgument argument) r
  pure (ofBlocks [l.prologue, imports, bodyLines, lines, [call]])

/-- **The snippet for a resolved request** in a language. -/
def generate (l : Language) (r : ResolvedRequest) : Outcome String := do
  let body ← (Body.build r).outcome
  let draft ← write l r body []
  let imports ← Imports.resolve r l body (some draft)
  write l r body imports

/-- The snippet in the language with an identifier. -/
def generateIn (r : ResolvedRequest) (id : String) : Outcome String := do
  let l ← Language.find id
  generate l r

/-- The snippets in several languages, each once. Every language is looked up
before the request is resolved. -/
def generateMany (resolved : Outcome ResolvedRequest) (ids : List String) :
    Except Fault (List (String × String)) := do
  let _ ← Outcome.mapAll Language.find ids
  let r ← resolved
  let texts ← Outcome.mapAll (generateIn r) ids
  pure (Entries.ofPairs (ids.zip texts))

end Snippet

end ApiSnippets
