import ApiSnippets.Request.Call
import ApiSnippets.Request.Path
import ApiSnippets.Schema.Shape
/-!
# The tree of templates

The path templates of an API as a tree with one node per segment. A node
holds the operations of the template that ends in it, and its children in the
order in which the document first mentions them.
-/

namespace ApiSnippets

/-- A segment of the tree of templates. -/
structure PathNode where
  segment : String
  path : String
  operations : List (Method × Operation) := []
  children : List PathNode := []
  deriving Inhabited

namespace PathNode

/-! ## Segments -/

/-- Whether a template segment is a lone placeholder such as `{id}`. -/
def isPlaceholder (segment : String) : Bool :=
  Text.hasStart "\x7b" segment && Text.hasEnd "\x7d" segment && !Text.hasChar '(' segment

/-- Whether a template segment has an argument list. -/
def isCall (segment : String) : Bool :=
  Text.hasChar '(' segment && Text.hasEnd ")" segment

/-- Whether the node is a placeholder. -/
def isParameter (n : PathNode) : Bool :=
  isPlaceholder n.segment

/-- The name of a placeholder. -/
def parameterName? (n : PathNode) : Option String :=
  if n.isParameter then some (String.ofList (n.segment.toList.drop 1).dropLast) else none

/-- Whether the node has an argument list. -/
def hasArguments (n : PathNode) : Bool :=
  isCall n.segment

/-! ## Building -/

/-- The node above the first segment. -/
def root : PathNode :=
  { segment := "", path := "/" }

/-- A new node below a path. -/
def fresh (path segment : String) : PathNode :=
  { segment := segment, path := Path.below path segment }

/-- The nodes with the one for a segment changed, which is new and last when
there is none. -/
def change (path segment : String) (f : PathNode → PathNode) : List PathNode → List PathNode
  | [] => [f (fresh path segment)]
  | n :: ns => if n.segment = segment then f n :: ns else n :: change path segment f ns

/-- The tree with operations added at the end of a sequence of segments,
whose nodes are created where they are missing. -/
def insert : List String → List (Method × Operation) → PathNode → PathNode
  | [], ops, n => { n with operations := Entries.putAll n.operations ops }
  | s :: ss, ops, n => { n with children := change n.path s (insert ss ops) n.children }

/-! ## Looking up -/

/-- The child for a segment. -/
def child? (n : PathNode) (segment : String) : Option PathNode :=
  n.children.find? fun c => c.segment == segment

/-- The node at the end of a sequence of segments. -/
def find? : List String → PathNode → Option PathNode
  | [], n => some n
  | s :: ss, n => (n.child? s).bind (find? ss)

/-- The operation for a method. -/
def operation? (n : PathNode) (m : Method) : Option Operation :=
  Entries.get? n.operations m

mutual

/-- A node and everything below it, depth first. -/
def walk : PathNode → List PathNode
  | ⟨segment, path, operations, children⟩ =>
    ⟨segment, path, operations, children⟩ :: walkAll children

/-- Nodes and everything below them, depth first. -/
def walkAll : List PathNode → List PathNode
  | [] => []
  | n :: ns => walk n ++ walkAll ns

end

end PathNode

end ApiSnippets
