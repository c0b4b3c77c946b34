import ApiSnippets.Yaml.Tag
import ApiSnippets.Yaml.Token
/-!
# YAML graphs

What a sequence of tokens describes: nodes, numbered in the order in which
they begin. An alias is the number of the node it stands for, so a node may
occur in several places and even inside itself. A text holds one document at
most.
-/

namespace ApiSnippets

namespace Yaml

/-- What a node consists of; parts are given by their numbers. -/
inductive Body where
  | scalar (text : String)
  | sequence (items : List Nat)
  | mapping (pairs : List (Nat × Nat))
  deriving DecidableEq, Repr, Inhabited

/-- A node. -/
structure Node where
  tag : Tag
  body : Body
  deriving DecidableEq, Repr, Inhabited

/-- The state of the parser: the tokens ahead, the nodes so far, the nodes
that anchors stand for, and the tag handles. -/
structure ParseState where
  tokens : List Token
  nodes : Array Node := #[]
  anchors : List (String × Nat) := []
  handles : List (String × String) := []

/-- A parsing step. -/
abbrev Parse := StateT ParseState (Except ReadFault)

namespace Parse

/-! ## Tokens -/

/-- The text is not YAML. -/
def fail {α : Type} : Parse α :=
  throw .malformed

/-- The next token; past the end stands the end of the stream. Where the text
is refused nothing can be read. -/
def peek : Parse Token := do
  match (← get).tokens.head?.getD .streamEnd with
  | .refused e => throw e
  | t => pure t

/-- Passes a token. -/
def next : Parse Unit :=
  modify fun s => { s with tokens := s.tokens.drop 1 }

/-- Passes a token that must be this one. -/
def expect (t : Token) : Parse Unit := do
  if (← peek) == t then next else fail

/-- Passes a token if it is this one. -/
def accept (t : Token) : Parse Bool := do
  if (← peek) == t then
    next
    pure true
  else pure false

/-! ## Nodes -/

/-- Adds a node and gives its number. -/
def add (n : Node) : Parse Nat :=
  modifyGet fun s => (s.nodes.size, { s with nodes := s.nodes.push n })

/-- Adds a node that an anchor may name. No anchor is given twice. -/
def begin (anchor : Option String) (n : Node) : Parse Nat := do
  match anchor with
  | none => add n
  | some a =>
    if ((← get).anchors.lookup a).isSome then fail
    else
      let id ← add n
      modify fun s => { s with anchors := (a, id) :: s.anchors }
      pure id

/-- Adds a collection before its parts, which may refer to it. -/
def collection (anchor : Option String) (tag : Tag) (parts : Parse Body) : Parse Nat := do
  let id ← begin anchor ⟨tag, .scalar ""⟩
  let body ← parts
  modify fun s => { s with nodes := s.nodes.setIfInBounds id ⟨tag, body⟩ }
  pure id

/-- Adds a sequence. -/
def sequence (anchor tag : Option String) (items : Parse (List Nat)) : Parse Nat :=
  collection anchor (.ofCollection .list tag) (.sequence <$> items)

/-- Adds a mapping. -/
def mapping (anchor tag : Option String) (pairs : Parse (List (Nat × Nat))) : Parse Nat :=
  collection anchor (.ofCollection .map tag) (.mapping <$> pairs)

/-- Adds a scalar. -/
def scalar (anchor tag : Option String) (plain : Bool) (text : String) : Parse Nat :=
  begin anchor ⟨.ofScalar tag plain text, .scalar text⟩

/-- Adds the empty scalar that stands for a missing node. -/
def empty : Parse Nat :=
  scalar none none true ""

/-! ## Properties -/

/-- The handles that every document has. -/
def commonHandles : List (String × String) :=
  [("!", "!"), ("!!", Tag.standardStart)]

/-- The full tag for a handle and a rest. -/
def fullTag (handle : Option String) (rest : String) : Parse String := do
  match handle with
  | none => pure rest
  | some h =>
    match ((← get).handles ++ commonHandles).lookup h with
    | some start => pure (start ++ rest)
    | none => fail

/-- The anchor and the tag before a node, in either order. -/
def properties : Parse (Option String × Option String) := do
  match ← peek with
  | .anchor a =>
    next
    match ← peek with
    | .tag h r =>
      next
      pure (some a, some (← fullTag h r))
    | _ => pure (some a, none)
  | .tag h r =>
    next
    let t ← fullTag h r
    match ← peek with
    | .anchor a =>
      next
      pure (some a, some t)
    | _ => pure (none, some t)
  | _ => pure (none, none)

/-! ## Parts of a document -/

/-- Whether one of these tokens comes next. -/
def isNext (ts : List Token) : Parse Bool := do
  pure (ts.contains (← peek))

mutual

/-- A node. In a block, collections may be indented; where `bare` holds, a
sequence may begin without an indentation of its own. -/
def node (inBlock bare : Bool) : Nat → Parse Nat
  | 0 => fail
  | n + 1 => do
    match ← peek with
    | .alias a =>
      next
      match (← get).anchors.lookup a with
      | some id => pure id
      | none => fail
    | _ =>
      let (anchor, tag) ← properties
      match ← peek with
      | .blockEntry => if bare then sequence anchor tag (bareItems n) else missing anchor tag
      | .scalar text plain =>
        next
        scalar anchor tag plain text
      | .flowSequenceStart =>
        next
        sequence anchor tag (flowItems true n)
      | .flowMappingStart =>
        next
        mapping anchor tag (flowPairs true n)
      | .blockSequenceStart =>
        if inBlock then
          next
          sequence anchor tag (blockItems n)
        else missing anchor tag
      | .blockMappingStart =>
        if inBlock then
          next
          mapping anchor tag (blockPairs n)
        else missing anchor tag
      | _ => missing anchor tag
where
  /-- An empty scalar, which only an anchor or a tag allows here. -/
  missing (anchor tag : Option String) : Parse Nat :=
    if anchor.isNone && tag.isNone then fail else scalar anchor tag true ""

/-- A node, or the empty scalar when one of these tokens comes next. -/
def nodeUnless (ends : List Token) (inBlock bare : Bool) : Nat → Parse Nat
  | 0 => fail
  | n + 1 => do
    if ← isNext ends then empty else node inBlock bare n

/-- The items of an indented sequence. -/
def blockItems : Nat → Parse (List Nat)
  | 0 => fail
  | n + 1 => do
    if ← accept .blockEntry then
      let item ← nodeUnless [.blockEntry, .blockEnd] true false n
      let more ← blockItems n
      pure (item :: more)
    else
      expect .blockEnd
      pure []

/-- The items of a sequence without an indentation of its own. -/
def bareItems : Nat → Parse (List Nat)
  | 0 => fail
  | n + 1 => do
    if ← accept .blockEntry then
      let item ← nodeUnless [.blockEntry, .key, .value, .blockEnd] true false n
      let more ← bareItems n
      pure (item :: more)
    else pure []

/-- The pairs of an indented mapping. -/
def blockPairs : Nat → Parse (List (Nat × Nat))
  | 0 => fail
  | n + 1 => do
    if ← isNext [.key, .value] then
      let k ←
        if ← accept .key then nodeUnless [.key, .value, .blockEnd] true true n
        else fail
      let v ←
        if ← accept .value then nodeUnless [.key, .value, .blockEnd] true true n
        else empty
      let more ← blockPairs n
      pure ((k, v) :: more)
    else
      expect .blockEnd
      pure []

/-- The items of a sequence in brackets. -/
def flowItems (first : Bool) : Nat → Parse (List Nat)
  | 0 => fail
  | n + 1 => do
    if ← accept .flowSequenceEnd then pure []
    else
      if !first then expect .flowEntry
      if ← accept .flowSequenceEnd then pure []
      else
        let item ←
          if ← accept .key then mapping none none (lonePair n)
          else node false false n
        let more ← flowItems false n
        pure (item :: more)

/-- The one pair of a mapping that is an item in brackets, after its key mark. -/
def lonePair : Nat → Parse (List (Nat × Nat))
  | 0 => fail
  | n + 1 => do
    let k ← nodeUnless [.value, .flowEntry, .flowSequenceEnd] false false n
    let v ←
      if ← accept .value then nodeUnless [.flowEntry, .flowSequenceEnd] false false n
      else empty
    pure [(k, v)]

/-- The pairs of a mapping in braces. -/
def flowPairs (first : Bool) : Nat → Parse (List (Nat × Nat))
  | 0 => fail
  | n + 1 => do
    if ← accept .flowMappingEnd then pure []
    else
      if !first then expect .flowEntry
      if ← accept .flowMappingEnd then pure []
      else
        let pair ←
          if ← accept .key then do
            let k ← nodeUnless [.value, .flowEntry, .flowMappingEnd] false false n
            let v ←
              if ← accept .value then nodeUnless [.flowEntry, .flowMappingEnd] false false n
              else empty
            pure (k, v)
          else do
            let k ← node false false n
            let v ← empty
            pure (k, v)
        let more ← flowPairs false n
        pure (pair :: more)

end

/-! ## Documents -/

/-- Directives before a document: there is one version at most, which must be
1, and every handle is given once. -/
def directives (versioned : Bool) : Nat → Parse Unit
  | 0 => fail
  | n + 1 => do
    match ← peek with
    | .versionDirective major =>
      next
      if versioned || major != 1 then fail
      directives true n
    | .tagDirective handle start =>
      next
      if ((← get).handles.lookup handle).isSome then fail
      modify fun s => { s with handles := (handle, start) :: s.handles }
      directives versioned n
    | .otherDirective =>
      next
      directives versioned n
    | _ => pure ()

/-- Passes document end marks. -/
def documentEnds : Nat → Parse Unit
  | 0 => fail
  | n + 1 => do
    if ← accept .documentEnd then documentEnds n

/-- Whether a directive comes next. -/
def atDirective : Parse Bool := do
  match ← peek with
  | .versionDirective _ => pure true
  | .tagDirective _ _ => pure true
  | .otherDirective => pure true
  | _ => pure false

/-- The root of the one document of a text, none when there is none. -/
def document (fuel : Nat) : Parse (Option Nat) := do
  if (← peek) == .streamEnd then pure none
  else if (← atDirective) || (← peek) == .documentStart then
    directives false fuel
    expect .documentStart
    if (← atDirective) || (← isNext [.documentStart, .documentEnd, .streamEnd]) then
      finish (← empty)
    else finish (← node true false fuel)
  else finish (← node true false fuel)
where
  /-- The end of the only document. -/
  finish (root : Nat) : Parse (Option Nat) := do
    documentEnds fuel
    expect .streamEnd
    pure (some root)

end Parse

/-- The nodes of a text and the number of its root, which an empty text does
not have. -/
def graph (cs : List Char) : Except ReadFault (Array Node × Option Nat) := do
  let ts := tokens cs
  let (root, s) ← (Parse.document (4 * ts.length + 4)).run { tokens := ts }
  pure (s.nodes, root)

end Yaml

end ApiSnippets
