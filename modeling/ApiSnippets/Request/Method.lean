/-!
# HTTP methods

The methods a recorded request can use.
-/

namespace ApiSnippets

/-- An HTTP method. -/
inductive Method where
  | get
  | post
  | put
  | patch
  | delete
  | head
  | options
  deriving DecidableEq, Repr, Inhabited

namespace Method

/-- Every method, in the order of declaration. -/
def all : List Method :=
  [get, post, put, patch, delete, head, options]

/-- The name of a method in lower case. -/
def name : Method → String
  | get => "get"
  | post => "post"
  | put => "put"
  | patch => "patch"
  | delete => "delete"
  | head => "head"
  | options => "options"

/-- The method with a lower-case name. -/
def ofName? (s : String) : Option Method :=
  all.find? fun m => m.name == s

end Method

end ApiSnippets
