import ApiSnippets.Number.Text
import ApiSnippets.Text.Percent
import ApiSnippets.Yaml.Fault
/-!
# YAML tokens

The tokens of a YAML 1.1 text. Indentation becomes tokens that open and close
block collections, and the beginning of a `key: value` pair, which shows only
at the colon, is put in front of the key afterwards: the scanner remembers for
every flow level where a key may have begun.

The scanner is a state passed through small steps; loops are bounded by the
number of characters left. Where a step finds that the text is refused, the
tokens found so far are followed by one that says why, so that whoever reads
them meets the first fault first.
-/

namespace ApiSnippets

namespace Yaml

/-- The style of a block scalar and of quoted text matters for typing only in
so far as it is plain or not. -/
inductive Token where
  /-- The version of the language; only the first number of it counts. -/
  | versionDirective (major : Nat)
  /-- The beginning of tags that a handle stands for. -/
  | tagDirective (handle start : String)
  /-- A directive of another name. -/
  | otherDirective
  | documentStart
  | documentEnd
  | streamEnd
  | blockSequenceStart
  | blockMappingStart
  | blockEnd
  | flowSequenceStart
  | flowSequenceEnd
  | flowMappingStart
  | flowMappingEnd
  | blockEntry
  | flowEntry
  | key
  | value
  | alias (name : String)
  | anchor (name : String)
  | tag (handle : Option String) (rest : String)
  | scalar (text : String) (plain : Bool)
  /-- The text is refused from here on. -/
  | refused (fault : ReadFault)
  deriving DecidableEq, Repr

/-- A place where a key may have begun. -/
structure KeyStart where
  /-- The number of tokens before the key. -/
  tokens : Nat
  /-- Whether anything but a key would be an error. -/
  required : Bool
  index : Nat
  line : Nat
  column : Nat

/-- The state of the scanner. -/
structure Scanner where
  rest : List Char
  index : Nat := 0
  line : Nat := 0
  column : Nat := 0
  flow : Nat := 0
  indent : Int := -1
  indents : List Int := []
  allowKey : Bool := true
  /-- Key beginnings by flow level. -/
  starts : List (Nat × KeyStart) := []
  tokens : List Token := []

/-- A scanning step. -/
abbrev Scan := ExceptT ReadFault (StateM Scanner)

namespace Scan

/-- The text is not YAML. -/
def fail {α : Type} : Scan α :=
  throw .malformed

/-! ## Characters -/

/-- The character a number of places ahead; past the end stands a NUL. -/
def peek (n : Nat) : Scan Char := do
  pure ((← get).rest[n]?.getD '\x00')

/-- The next characters. -/
def ahead (n : Nat) : Scan (List Char) := do
  pure ((← get).rest.take n)

/-- A line break of any kind. -/
def isBreak (c : Char) : Bool :=
  c == '\n' || c == '\r' || c.toNat == 0x85 || c.toNat == 0x2028 || c.toNat == 0x2029

/-- A line break or the end of the text. -/
def isLineEnd (c : Char) : Bool :=
  c.toNat == 0 || isBreak c

/-- A space, a line break or the end of the text. -/
def isSpaceOrEnd (c : Char) : Bool :=
  c == ' ' || isLineEnd c

/-- A space, a tab, a line break or the end of the text. -/
def isGap (c : Char) : Bool :=
  c == '\t' || isSpaceOrEnd c

/-- Passes a character. -/
def next : Scan Unit :=
  modify fun s =>
    match s.rest with
    | [] => s
    | c :: rest =>
      if c == '\n' || c.toNat == 0x85 || c.toNat == 0x2028 || c.toNat == 0x2029 ||
          (c == '\r' && rest.head? != some '\n') then
        { s with rest := rest, index := s.index + 1, line := s.line + 1, column := 0 }
      else if c == '\uFEFF' then { s with rest := rest, index := s.index + 1 }
      else { s with rest := rest, index := s.index + 1, column := s.column + 1 }

/-- Passes a number of characters. -/
def skip : Nat → Scan Unit
  | 0 => pure ()
  | n + 1 => do
    next
    skip n

/-- Passes the characters of a class and gives them. -/
def takeWhile (p : Char → Bool) : Scan (List Char) := do
  let cs := (← get).rest.takeWhile p
  skip cs.length
  pure cs

/-- Passes a line break, if there is one, and gives what it counts as. -/
def lineBreak : Scan (List Char) := do
  let c ← peek 0
  if c == '\r' && (← peek 1) == '\n' then
    skip 2
    pure ['\n']
  else if c == '\r' || c == '\n' || c.toNat == 0x85 then
    next
    pure ['\n']
  else if isBreak c then
    next
    pure [c]
  else pure []

/-- Whether a document marker stands here. -/
def atMarker : Scan Bool := do
  let cs ← ahead 3
  pure ((cs == "---".toList || cs == "...".toList) && isGap (← peek 3))

/-- The bound of loops from here on. -/
def fuel : Scan Nat := do
  pure ((← get).rest.length + 1)

/-! ## Tokens and keys -/

/-- Adds a token. -/
def emit (t : Token) : Scan Unit :=
  modify fun s => { s with tokens := s.tokens ++ [t] }

/-- Puts a token at a place among those found. -/
def emitAt (n : Nat) (t : Token) : Scan Unit :=
  modify fun s => { s with tokens := s.tokens.take n ++ t :: s.tokens.drop n }

/-- Forgets the key beginning of the current level, which must not be
required. -/
def dropStart : Scan Unit := do
  let s ← get
  match s.starts.lookup s.flow with
  | some k => if k.required then fail else set { s with starts := s.starts.filter (·.1 != s.flow) }
  | none => pure ()

/-- Notes that a key may begin here. -/
def noteStart : Scan Unit := do
  let s ← get
  if s.allowKey then
    let required := s.flow == 0 && s.indent == (s.column : Int)
    let start : KeyStart := ⟨s.tokens.length, required, s.index, s.line, s.column⟩
    dropStart
    modify fun s => { s with starts := (s.flow, start) :: s.starts }

/-- Forgets the key beginnings that are on another line or too far back. -/
def dropStale : Scan Unit := do
  let s ← get
  let isStale := fun (k : KeyStart) => k.line != s.line || decide (1024 < s.index - k.index)
  if s.starts.any fun p => isStale p.2 && p.2.required then fail
  else set { s with starts := s.starts.filter fun p => !isStale p.2 }

/-- Allows or forbids a key to begin at the next token. -/
def setAllow (b : Bool) : Scan Unit :=
  modify fun s => { s with allowKey := b }

/-- Closes the block collections that are indented more than a column. -/
def unwind (column : Int) : Nat → Scan Unit
  | 0 => pure ()
  | n + 1 => do
    let s ← get
    if s.flow == 0 && decide (column < s.indent) then
      match s.indents with
      | i :: is =>
        set { s with indent := i, indents := is }
        emit .blockEnd
        unwind column n
      | [] => pure ()

/-- Opens an indentation, if the column is deeper than the current one. -/
def addIndent (column : Nat) : Scan Bool := do
  let s ← get
  if s.indent < column then
    set { s with indent := column, indents := s.indent :: s.indents }
    pure true
  else pure false

/-- Closes all block collections. -/
def unwindAll : Scan Unit := do
  unwind (-1) ((← get).indents.length + 1)

/-! ## Scalars -/

/-- The letters after a backslash that stand for one character. -/
def escapes : List (Char × Nat) :=
  [('0', 0), ('a', 7), ('b', 8), ('t', 9), ('\t', 9), ('n', 10), ('v', 11), ('f', 12), ('r', 13),
    ('e', 27), (' ', 32), ('"', 34), ('\\', 92), ('/', 47), ('N', 0x85), ('_', 0xA0), ('L', 0x2028),
    ('P', 0x2029)]

/-- The number of hexadecimal digits after an escape letter. -/
def escapeWidth? (c : Char) : Option Nat :=
  if c == 'x' then some 2 else if c == 'u' then some 4 else if c == 'U' then some 8 else none

/-- The character with a number in hexadecimal digits. There are numbers that
no character has, and numbers too great to be looked up. -/
def escaped (width : Nat) (digits : List Char) : Scan Char := do
  match digits.mapM Text.hexValue? with
  | none => fail
  | some values =>
    if values.length != width then fail
    else
      let code := values.foldl (fun n d => 16 * n + d) 0
      if 0x80000000 ≤ code then throw .beyond
      else if 0x10FFFF < code then throw .noValue
      else pure (Char.ofNat code)

/-- Line breaks inside quotes, where a document marker is an error. -/
def quotedBreaks : Nat → Scan (List Char)
  | 0 => pure []
  | n + 1 => do
    if ← atMarker then fail
    let _ ← takeWhile fun c => c == ' ' || c == '\t'
    if isBreak (← peek 0) then
      let b ← lineBreak
      let more ← quotedBreaks n
      pure (b ++ more)
    else pure []

/-- White space inside quotes: line breaks are folded. -/
def quotedSpaces : Scan (List Char) := do
  let blanks ← takeWhile fun c => c == ' ' || c == '\t'
  let c ← peek 0
  if c.toNat == 0 then fail
  else if isBreak c then
    let b ← lineBreak
    let breaks ← quotedBreaks (← fuel)
    let first := if b != ['\n'] then b else if breaks.isEmpty then [' '] else []
    pure (first ++ breaks)
  else pure blanks

/-- Characters inside quotes up to white space or the closing quote. -/
def quotedText (double : Bool) : Nat → Scan (List Char)
  | 0 => pure []
  | n + 1 => do
    let plain ← takeWhile fun c =>
      !(c == '\'' || c == '"' || c == '\\' || isGap c)
    let c ← peek 0
    if !double && c == '\'' && (← peek 1) == '\'' then
      skip 2
      let more ← quotedText double n
      pure (plain ++ '\'' :: more)
    else if (double && c == '\'') || (!double && (c == '"' || c == '\\')) then
      next
      let more ← quotedText double n
      pure (plain ++ c :: more)
    else if double && c == '\\' then
      next
      let e ← peek 0
      match escapes.lookup e, escapeWidth? e with
      | some code, _ =>
        next
        let more ← quotedText double n
        pure (plain ++ Char.ofNat code :: more)
      | none, some width =>
        next
        let digits ← ahead width
        let c ← escaped width digits
        skip width
        let more ← quotedText double n
        pure (plain ++ c :: more)
      | none, none =>
        if isBreak e then
          let _ ← lineBreak
          let breaks ← quotedBreaks (← fuel)
          let more ← quotedText double n
          pure (plain ++ breaks ++ more)
        else fail
    else pure plain

/-- The text between quotes, from after the opening quote to before the
closing one. -/
def quotedParts (quote : Char) : Nat → Scan (List Char)
  | 0 => fail
  | n + 1 => do
    if (← peek 0) == quote then pure []
    else
      let spaces ← quotedSpaces
      let text ← quotedText (quote == '"') (← fuel)
      let more ← quotedParts quote n
      pure (spaces ++ text ++ more)

/-- A quoted scalar. -/
def quoted (quote : Char) : Scan Token := do
  next
  let first ← quotedText (quote == '"') (← fuel)
  let more ← quotedParts quote (← fuel)
  next
  pure (.scalar (String.ofList (first ++ more)) false)

/-- Line breaks after a plain scalar's line; none when a document marker
follows. -/
def plainBreaks : Nat → Scan (Option (List Char))
  | 0 => pure (some [])
  | n + 1 => do
    let c ← peek 0
    if c == ' ' then
      next
      plainBreaks n
    else if isBreak c then
      let b ← lineBreak
      if ← atMarker then pure none
      else do
        let more ← plainBreaks n
        pure (more.map (b ++ ·))
    else pure (some [])

/-- White space inside a plain scalar: line breaks are folded. -/
def plainSpaces : Scan (List Char) := do
  let blanks ← takeWhile (· == ' ')
  if isBreak (← peek 0) then
    let b ← lineBreak
    setAllow true
    if ← atMarker then pure []
    else
      match ← plainBreaks (← fuel) with
      | none => pure []
      | some breaks =>
        let first := if b != ['\n'] then b else if breaks.isEmpty then [' '] else []
        pure (first ++ breaks)
  else pure blanks

/-- The characters of a plain scalar before the next white space. -/
def plainWord (inFlow : Bool) : List Char → List Char
  | [] => []
  | c :: cs =>
    let after := cs.head?.getD '\x00'
    if isGap c then []
    else if c == ':' && (isGap after ||
        (inFlow && (after == ',' || after == '[' || after == ']' || after == '\x7b' ||
          after == '\x7d'))) then []
    else if inFlow && (c == ',' || c == '?' || c == '[' || c == ']' || c == '\x7b' || c == '\x7d') then []
    else c :: plainWord inFlow cs

/-- A plain scalar from here on; `spaces` is the white space before it. -/
def plainParts (indent : Int) (spaces : List Char) : Nat → Scan (List Char)
  | 0 => pure []
  | n + 1 => do
    let s ← get
    let inFlow := s.flow != 0
    if s.rest.head? == some '#' then pure []
    else
      let word := plainWord inFlow s.rest
      if word.isEmpty then pure []
      else
        setAllow false
        skip word.length
        let gap ← plainSpaces
        let s ← get
        if gap.isEmpty || s.rest.head? == some '#' || (!inFlow && decide ((s.column : Int) < indent)) then
          pure (spaces ++ word)
        else
          let more ← plainParts indent gap n
          pure (spaces ++ word ++ more)

/-- A plain scalar. -/
def plain : Scan Token := do
  let indent := (← get).indent + 1
  let text ← plainParts indent [] (← fuel)
  pure (.scalar (String.ofList text) true)

/-- Passes a comment and the line break at the end of a line that holds
nothing else. -/
def restOfLine : Scan Unit := do
  let _ ← takeWhile (· == ' ')
  if (← peek 0) == '#' then
    let _ ← takeWhile (fun c => !isLineEnd c)
  if isLineEnd (← peek 0) then
    let _ ← lineBreak
  else fail

/-- The line breaks before the text of a block scalar and the deepest column
seen among them. -/
def blockIndentation (deepest : Nat) : Nat → Scan (List Char × Nat)
  | 0 => pure ([], deepest)
  | n + 1 => do
    let c ← peek 0
    if c == ' ' then
      next
      blockIndentation (max deepest (← get).column) n
    else if isBreak c then
      let b ← lineBreak
      let (more, deepest) ← blockIndentation deepest n
      pure (b ++ more, deepest)
    else pure ([], deepest)

/-- Passes spaces up to a column. -/
def spacesTo (column : Nat) : Nat → Scan Unit
  | 0 => pure ()
  | n + 1 => do
    if decide ((← get).column < column) && (← peek 0) == ' ' then
      next
      spacesTo column n

/-- Empty lines of a block scalar. -/
def blockBreaks (column : Nat) : Nat → Scan (List (List Char))
  | 0 => pure []
  | n + 1 => do
    spacesTo column (← fuel)
    if isBreak (← peek 0) then
      let b ← lineBreak
      let more ← blockBreaks column n
      pure (b :: more)
    else pure []

/-- The lines of a block scalar, the line break that ends it and the empty
lines after it. -/
def blockLines (folded : Bool) (column : Nat) (breaks : List (List Char)) :
    Nat → Scan (List Char × List Char × List (List Char))
  | 0 => pure ([], [], breaks)
  | n + 1 => do
    let s ← get
    if s.column != column || s.rest.isEmpty then pure ([], [], breaks)
    else
      let c ← peek 0
      let leading := c != ' ' && c != '\t'
      let line ← takeWhile (fun c => !isLineEnd c)
      let b ← lineBreak
      let after ← blockBreaks column (← fuel)
      let s ← get
      if s.column == column && !s.rest.isEmpty then
        let d ← peek 0
        let joint :=
          if folded && b == ['\n'] && leading && d != ' ' && d != '\t' then
            (if after.isEmpty then [' '] else [])
          else b
        let (more, last, tail) ← blockLines folded column after n
        pure (breaks.flatten ++ line ++ joint ++ more, last, tail)
      else pure (breaks.flatten ++ line, b, after)

/-- The header of a block scalar: whether line breaks at the end are kept,
dropped or clipped, and the indentation it states. -/
def blockHeader : Scan (Option Bool × Option Nat) := do
  let sign := fun (c : Char) => if c == '+' then some true else if c == '-' then some false else none
  let digit := fun (c : Char) => if '1' ≤ c ∧ c ≤ '9' then some (c.toNat - 48) else none
  let c ← peek 0
  let d ← peek 1
  match sign c, digit c with
  | some keep, _ =>
    match digit d with
    | some n =>
      skip 2
      pure (some keep, some n)
    | none =>
      if d == '0' then fail
      next
      pure (some keep, none)
  | none, some n =>
    match sign d with
    | some keep =>
      skip 2
      pure (some keep, some n)
    | none =>
      next
      pure (none, some n)
  | none, none => if c == '0' then fail else pure (none, none)

/-- A literal or folded block scalar. -/
def block (folded : Bool) : Scan Token := do
  next
  let (keep, increment) ← blockHeader
  if !isSpaceOrEnd (← peek 0) then fail
  restOfLine
  let least := max 1 ((← get).indent + 1).toNat
  let (column, breaks) ←
    match increment with
    | some n => do
      let breaks ← blockBreaks (least + n - 1) (← fuel)
      pure (least + n - 1, breaks)
    | none => do
      let (breaks, deepest) ← blockIndentation 0 (← fuel)
      pure (max least deepest, breaks.map ([·]))
  let (text, last, tail) ← blockLines folded column breaks (← fuel)
  let ending :=
    match keep with
    | some false => []
    | some true => last ++ tail.flatten
    | none => last
  pure (.scalar (String.ofList (text ++ ending)) false)

/-! ## Names -/

/-- A character of an anchor or a tag handle. -/
def isNameChar (c : Char) : Bool :=
  Text.isAsciiLetter c || (decide ('0' ≤ c) && decide (c ≤ '9')) || c == '-' || c == '_'

/-- The name after `*` or `&`. -/
def anchorName : Scan String := do
  next
  let name ← takeWhile isNameChar
  let c ← peek 0
  if name.isEmpty || !(isGap c || "?:,]\x7d%@".toList.contains c || c.toNat == 96) then fail
  pure (String.ofList name)

/-- A character of a tag. -/
def isTagChar (c : Char) : Bool :=
  Text.isAsciiLetter c || (decide ('0' ≤ c) && decide (c ≤ '9')) ||
    "-;/?:@&=+$,_.!~*'()[]%".toList.contains c

/-- The octets of percent escapes in a row. -/
def tagOctets : Nat → Scan Bytes
  | 0 => pure []
  | n + 1 => do
    if (← peek 0) == '%' then
      match Text.hexValue? (← peek 1), Text.hexValue? (← peek 2) with
      | some x, some y =>
        skip 3
        let more ← tagOctets n
        pure (UInt8.ofNat (16 * x + y) :: more)
      | _, _ => fail
    else pure []

/-- The characters of a tag from here on, percent escapes read as UTF-8. -/
def tagChars : Nat → Scan (List Char)
  | 0 => pure []
  | n + 1 => do
    let cs ← takeWhile fun c => isTagChar c && c != '%'
    if (← peek 0) == '%' then
      match Utf8.decode? (← tagOctets (← fuel)) with
      | some s =>
        let more ← tagChars n
        pure (cs ++ s.toList ++ more)
      | none => fail
    else pure cs

/-- The characters of a tag, of which there is one at least. -/
def tagText : Scan String := do
  let cs ← tagChars (← fuel)
  if cs.isEmpty then fail
  pure (String.ofList cs)

/-- A handle between exclamation marks, or the mark alone before a space. -/
def tagHandle : Scan String := do
  if (← peek 0) != '!' then fail
  next
  if (← peek 0) == ' ' then pure "!"
  else
    let name ← takeWhile isNameChar
    if (← peek 0) != '!' then fail
    next
    pure ("!" ++ String.ofList name ++ "!")

/-- A tag. -/
def tagToken : Scan Token := do
  let c ← peek 1
  let token ←
    if c == '<' then do
      skip 2
      let rest ← tagText
      if (← peek 0) != '>' then fail
      next
      pure (Token.tag none rest)
    else if isGap c then do
      next
      pure (Token.tag none "!")
    else do
      let upcoming := (← get).rest.drop 1
      if (upcoming.takeWhile fun c => !isSpaceOrEnd c).contains '!' then
        let handle ← tagHandle
        let rest ← tagText
        pure (Token.tag (some handle) rest)
      else
        next
        let rest ← tagText
        pure (Token.tag (some "!") rest)
  if !isSpaceOrEnd (← peek 0) then fail
  pure token

/-- A number of a version. -/
def versionNumber : Scan Nat := do
  let ds ← takeWhile Number.isNumeral
  if ds.isEmpty then fail
  pure (Number.plainValue ds)

/-- The version after the name of its directive: two numbers with a dot. -/
def versionDirective : Scan Token := do
  let _ ← takeWhile (· == ' ')
  let major ← versionNumber
  if (← peek 0) != '.' then fail
  next
  let _ ← versionNumber
  if !isSpaceOrEnd (← peek 0) then fail
  pure (.versionDirective major)

/-- The handle and the beginning of tags after the name of their directive. -/
def tagDirective : Scan Token := do
  let _ ← takeWhile (· == ' ')
  let handle ← tagHandle
  if (← peek 0) != ' ' then fail
  let _ ← takeWhile (· == ' ')
  let start ← tagText
  if !isSpaceOrEnd (← peek 0) then fail
  pure (.tagDirective handle start)

/-- A directive, up to the end of its line. -/
def directive : Scan Token := do
  next
  let name ← takeWhile isNameChar
  if name.isEmpty || !isSpaceOrEnd (← peek 0) then fail
  let token ←
    if name = "YAML".toList then versionDirective
    else if name = "TAG".toList then tagDirective
    else do
      let _ ← takeWhile (fun c => !isLineEnd c)
      pure Token.otherDirective
  restOfLine
  pure token

/-! ## The next token -/

/-- Passes white space, comments and line breaks. -/
def toNextToken : Nat → Scan Unit
  | 0 => pure ()
  | n + 1 => do
    let s ← get
    if s.index == 0 && s.rest.head? == some '\uFEFF' then next
    let _ ← takeWhile (· == ' ')
    if (← peek 0) == '#' then
      let _ ← takeWhile (fun c => !isLineEnd c)
    if isBreak (← peek 0) then
      let _ ← lineBreak
      if (← get).flow == 0 then setAllow true
      toNextToken n

/-- A token that ends whatever was open before it. -/
def marker (t : Token) : Scan Unit := do
  unwindAll
  dropStart
  setAllow false
  skip 3
  emit t

/-- An opening bracket. -/
def flowOpen (t : Token) : Scan Unit := do
  noteStart
  modify fun s => { s with flow := s.flow + 1, allowKey := true }
  next
  emit t

/-- A closing bracket. -/
def flowClose (t : Token) : Scan Unit := do
  dropStart
  if (← get).flow == 0 then fail
  modify fun s => { s with flow := s.flow - 1, allowKey := false }
  next
  emit t

/-- A dash before an entry. -/
def blockEntry : Scan Unit := do
  let s ← get
  if s.flow == 0 then
    if !s.allowKey then fail
    if ← addIndent s.column then emit .blockSequenceStart
  setAllow true
  dropStart
  next
  emit .blockEntry

/-- A question mark before a key. -/
def explicitKey : Scan Unit := do
  let s ← get
  if s.flow == 0 then
    if !s.allowKey then fail
    if ← addIndent s.column then emit .blockMappingStart
  setAllow (s.flow == 0)
  dropStart
  next
  emit .key

/-- A colon before a value. -/
def valueMark : Scan Unit := do
  let s ← get
  match s.starts.lookup s.flow with
  | some k =>
    set { s with starts := s.starts.filter (·.1 != s.flow) }
    emitAt k.tokens .key
    if s.flow == 0 then
      if ← addIndent k.column then emitAt k.tokens .blockMappingStart
    setAllow false
  | none =>
    if s.flow == 0 then
      if !s.allowKey then fail
      if ← addIndent s.column then emit .blockMappingStart
    setAllow (s.flow == 0)
    dropStart
  next
  emit .value

/-- A token that may be a key. -/
def keyLike (token : Scan Token) : Scan Unit := do
  noteStart
  setAllow false
  emit (← token)

/-- Whether a plain scalar begins with these characters. -/
def startsPlain (inFlow : Bool) (c d : Char) : Bool :=
  !(isGap c || "-?:,[]\x7b\x7d#&*!|>'\"%@".toList.contains c || c.toNat == 96) ||
    (!isGap d && (c == '-' || (!inFlow && (c == '?' || c == ':'))))

/-- Scans a token; false at the end of the text. -/
def token : Scan Bool := do
  toNextToken (← fuel)
  dropStale
  let s ← get
  unwind s.column (s.indents.length + 1)
  let c ← peek 0
  let d ← peek 1
  let inFlow := s.flow != 0
  let atStart := s.column == 0
  if s.rest.isEmpty then
    unwindAll
    dropStart
    emit .streamEnd
    return false
  else if c == '%' && atStart then
    unwindAll
    dropStart
    setAllow false
    emit (← directive)
  else if atStart && c == '-' && (← atMarker) then marker .documentStart
  else if atStart && c == '.' && (← atMarker) then marker .documentEnd
  else if c == '[' then flowOpen .flowSequenceStart
  else if c == '\x7b' then flowOpen .flowMappingStart
  else if c == ']' then flowClose .flowSequenceEnd
  else if c == '\x7d' then flowClose .flowMappingEnd
  else if c == ',' then
    setAllow true
    dropStart
    next
    emit .flowEntry
  else if c == '-' && isGap d then blockEntry
  else if c == '?' && (inFlow || isGap d) then explicitKey
  else if c == ':' && (inFlow || isGap d) then valueMark
  else if c == '*' then keyLike (Token.alias <$> anchorName)
  else if c == '&' then keyLike (Token.anchor <$> anchorName)
  else if c == '!' then keyLike tagToken
  else if (c == '|' || c == '>') && !inFlow then
    setAllow true
    dropStart
    emit (← block (c == '>'))
  else if c == '\'' || c == '"' then keyLike (quoted c)
  else if startsPlain inFlow c d then keyLike plain
  else fail
  return true

/-- Scans all tokens. -/
def all : Nat → Scan Unit
  | 0 => fail
  | n + 1 => do
    if ← token then all n

end Scan

/-- Characters a text may hold. -/
def isAllowed (c : Char) : Bool :=
  let n := c.toNat
  n == 9 || n == 10 || n == 13 || (decide (0x20 ≤ n) && decide (n ≤ 0x7E)) || n == 0x85 ||
    (decide (0xA0 ≤ n) && n != 0xFFFE && n != 0xFFFF)

/-- The tokens of a text, the last of which ends it or says why it is
refused. -/
def tokens (cs : List Char) : List Token :=
  if cs.all isAllowed then
    match (Scan.all (2 * cs.length + 2)).run { rest := cs } with
    | (.ok _, s) => s.tokens
    | (.error e, s) => s.tokens ++ [.refused e]
  else [.refused .malformed]

end Yaml

end ApiSnippets
