import ApiGraph.Yaml.Token

/-!
# The nodes of a YAML document

A document is a tree of scalars, sequences and mappings, in which an alias stands for a node with
an anchor.  Anchors are numbered: an anchor gets the number of different names that were used for
anchors before it in the document, and where two anchors get the same number the later one counts.

`Node.ofTokens?` reads the one document of a text; a text without a document has none.
-/

namespace ApiGraph.Yaml

/-- A node, with its tag and its anchor. -/
inductive Node where
  | scalar (text : List Char) (plain : Bool) (tag : Option (List Char)) (anchor : Option Nat)
  | sequence (items : List Node) (tag : Option (List Char)) (anchor : Option Nat)
  | mapping (members : List (Node × Node)) (tag : Option (List Char)) (anchor : Option Nat)
  | alias (anchor : Nat)

namespace Node

/-- A scalar without a text. -/
def empty : Node :=
  .scalar [] true none none

def anchor? : Node → Option Nat
  | .scalar _ _ _ a => a
  | .sequence _ _ a => a
  | .mapping _ _ a => a
  | .alias _ => none

mutual

/-- How often the document is entered and left by its nodes: once for a scalar or an alias, twice
for a collection. -/
def events : Node → Nat
  | .sequence items _ _ => 2 + itemEvents items
  | .mapping members _ _ => 2 + memberEvents members
  | _ => 1

def itemEvents : List Node → Nat
  | [] => 0
  | n :: r => events n + itemEvents r

def memberEvents : List (Node × Node) → Nat
  | [] => 0
  | (k, v) :: r => events k + events v + memberEvents r

end

mutual

/-- The nodes with anchors, in order. -/
def anchored (n : Node) : List (Nat × Node) :=
  (match n.anchor? with
    | some a => [(a, n)]
    | none => []) ++
    match n with
    | .sequence items _ _ => anchoredItems items
    | .mapping members _ _ => anchoredMembers members
    | _ => []

def anchoredItems : List Node → List (Nat × Node)
  | [] => []
  | n :: r => anchored n ++ anchoredItems r

def anchoredMembers : List (Node × Node) → List (Nat × Node)
  | [] => []
  | (k, v) :: r => anchored k ++ anchored v ++ anchoredMembers r

end

end Node

/-- Tokens that are left, with what the document has said so far. -/
structure Input where
  tokens : List Token
  /-- A bound on the number of tokens. -/
  bound : Nat
  /-- The anchors with their numbers, the last one first. -/
  anchors : List (List Char × Nat) := []
  /-- What the handles of tags stand for. -/
  handles : List (List Char × List Char) := []

namespace Input

/-- Reads a part of the document. -/
abbrev Reader (α : Type) := StateT Input Option α

def fail {α : Type} : Reader α :=
  fun _ => none

/-- The next token; behind the last one there are only ends. -/
def peek : Reader Token :=
  fun s => some (s.tokens.head?.getD .streamEnd, s)

def skip : Reader Unit :=
  fun s => some ((), { s with tokens := s.tokens.tail })

/-- Number an anchor. -/
def number (name : List Char) : Reader Nat :=
  fun s =>
    let n := (s.anchors.map (·.1)).eraseDups.length
    some (n, { s with anchors := (name, n) :: s.anchors })

/-- The number of the last anchor with the name. -/
def find (name : List Char) : Reader Nat :=
  fun s => (s.anchors.lookup name).map fun n => (n, s)

/-- What a tag says in full. -/
def fullTag (handle suffix : List Char) : Reader (List Char) :=
  fun s =>
    if handle.isEmpty then some (suffix, s)
    else (s.handles.lookup handle).map fun start => (start ++ suffix, s)

/-- The anchor and the tag before a node, in either order. -/
structure Properties where
  anchor : Option (List Char) := none
  tag : Option (List Char) := none

/-- Read at most one anchor and one tag, as far as they are not there yet. -/
def properties : Nat → Properties → Reader Properties
  | 0, ps => return ps
  | n + 1, ps => do
    match ← peek with
    | .anchor name =>
      if ps.anchor.isSome then return ps
      else
        skip
        properties n { ps with anchor := some name }
    | .tag handle suffix =>
      if ps.tag.isSome then return ps
      else
        skip
        let full ← fullTag handle suffix
        properties n { ps with tag := some full }
    | _ => return ps

/-- Number the anchor, if there is one. -/
def numberAnchor (ps : Properties) : Reader (Option Nat) :=
  match ps.anchor with
  | some name => do return some (← number name)
  | none => return none

/-- Is there a token at which an entry of a block sequence is empty? -/
def endsEntry : Token → Bool
  | .blockEntry => true
  | .blockEnd => true
  | _ => false

/-- Is there a token at which an entry of a sequence without an indentation is empty? -/
def endsFlushEntry : Token → Bool
  | .blockEntry => true
  | .key => true
  | .value => true
  | .blockEnd => true
  | _ => false

/-- Is there a token at which a key or a value of a block mapping is empty? -/
def endsMember : Token → Bool
  | .key => true
  | .value => true
  | .blockEnd => true
  | _ => false

/-- Where a node stands, which settles what it may be. -/
inductive Style where
  | block
  /-- In a block mapping, where a sequence need not be indented. -/
  | flush
  | flow
  deriving DecidableEq

section Collections

/- How the nodes inside are read. -/
variable (node : Style → Reader Node)

/-- Read a node unless it is empty. -/
def nodeUnless (isEnd : Token → Bool) (style : Style) : Reader Node := do
  if isEnd (← peek) then return .empty else node style

/-- Read the entries of a block sequence and its end, with a bound on their number. -/
def blockEntries : Nat → Reader (List Node)
  | 0 => fail
  | n + 1 => do
    match ← peek with
    | .blockEntry =>
      skip
      let item ← nodeUnless node endsEntry .block
      return item :: (← blockEntries n)
    | .blockEnd =>
      skip
      return []
    | _ => fail

/-- Read the entries of a sequence that is not indented. -/
def flushEntries : Nat → Reader (List Node)
  | 0 => fail
  | n + 1 => do
    match ← peek with
    | .blockEntry =>
      skip
      let item ← nodeUnless node endsFlushEntry .block
      return item :: (← flushEntries n)
    | _ => return []

/-- Read the value of a block mapping behind its key; it may be missing. -/
def blockValue : Reader Node := do
  match ← peek with
  | .value =>
    skip
    nodeUnless node endsMember .flush
  | _ => return .empty

/-- Read the members of a block mapping and its end. -/
def blockMembers : Nat → Reader (List (Node × Node))
  | 0 => fail
  | n + 1 => do
    match ← peek with
    | .key =>
      skip
      let k ← nodeUnless node endsMember .flush
      let v ← blockValue node
      return (k, v) :: (← blockMembers n)
    | .blockEnd =>
      skip
      return []
    | _ => fail

/-- Is there a token at which a value in flow style is empty? -/
def endsFlow (close : Token) (t : Token) : Bool :=
  t == .flowEntry || t == close

/-- Read the value behind a key in flow style; it may be missing. -/
def flowValue (close : Token) : Reader Node := do
  match ← peek with
  | .value =>
    skip
    nodeUnless node (endsFlow close) .flow
  | _ => return .empty

/-- Read the key behind its mark in flow style; it may be missing. -/
def flowKey (close : Token) : Reader Node :=
  nodeUnless node (fun t => t == .value || endsFlow close t) .flow

/-- Go past the comma before an entry that is not the first. -/
def flowComma (isFirst : Bool) : Reader Unit := do
  if isFirst then return ()
  else if (← peek) == .flowEntry then skip
  else fail

/-- Read the key behind its mark in a sequence in flow style.  Where it is missing, the token in its
place is gone past. -/
def flowItemKey : Reader Node := do
  let t ← peek
  if t == .value || endsFlow .flowSequenceEnd t then
    skip
    return .empty
  else node .flow

/-- Read the rest of a sequence in flow style.  A key with its value is an entry of its own, a
mapping with one member. -/
def flowItems : Nat → Bool → Reader (List Node)
  | 0, _ => fail
  | n + 1, isFirst => do
    if (← peek) == .flowSequenceEnd then
      skip
      return []
    else
      flowComma isFirst
      match ← peek with
      | .key =>
        skip
        let k ← flowItemKey node
        let v ← flowValue node .flowSequenceEnd
        return .mapping [(k, v)] none none :: (← flowItems n false)
      | .flowSequenceEnd =>
        skip
        return []
      | _ =>
        let item ← node .flow
        return item :: (← flowItems n false)

/-- Read the rest of a mapping in flow style.  A node without a mark for keys has no value. -/
def flowMembers : Nat → Bool → Reader (List (Node × Node))
  | 0, _ => fail
  | n + 1, isFirst => do
    if (← peek) == .flowMappingEnd then
      skip
      return []
    else
      flowComma isFirst
      match ← peek with
      | .key =>
        skip
        let k ← flowKey node .flowMappingEnd
        let v ← flowValue node .flowMappingEnd
        return (k, v) :: (← flowMembers n false)
      | .flowMappingEnd =>
        skip
        return []
      | _ =>
        let k ← node .flow
        return (k, .empty) :: (← flowMembers n false)

end Collections

/-- A bound on the number of entries of a collection. -/
def entryBound : Reader Nat :=
  fun s => some (s.bound, s)

/-- Read a node, with a bound on its nesting.  The tag of a scalar that is an exclamation mark alone
says nothing. -/
def node : Nat → Style → Reader Node
  | 0, _ => fail
  | n + 1, style => do
    match ← peek with
    | .alias name =>
      skip
      return .alias (← find name)
    | _ =>
      let ps ← properties 2 {}
      let a ← numberAnchor ps
      match ← peek with
      | .scalar text plain =>
        skip
        if ps.tag == some ['!'] then return .scalar text plain none a
        else return .scalar text plain ps.tag a
      | .flowSequenceStart =>
        skip
        return .sequence (← flowItems (node n) (← entryBound) true) ps.tag a
      | .flowMappingStart =>
        skip
        return .mapping (← flowMembers (node n) (← entryBound) true) ps.tag a
      | .blockEntry =>
        if style == .flush then
          return .sequence (← flushEntries (node n) (← entryBound)) ps.tag a
        else if a.isSome || ps.tag.isSome then return .scalar [] true ps.tag a
        else fail
      | .blockSequenceStart =>
        if style == .flow then
          if a.isSome || ps.tag.isSome then return .scalar [] true ps.tag a else fail
        else
          skip
          return .sequence (← blockEntries (node n) (← entryBound)) ps.tag a
      | .blockMappingStart =>
        if style == .flow then
          if a.isSome || ps.tag.isSome then return .scalar [] true ps.tag a else fail
        else
          skip
          return .mapping (← blockMembers (node n) (← entryBound)) ps.tag a
      | _ =>
        if a.isSome || ps.tag.isSome then return .scalar [] true ps.tag a else fail

/-- Read the directives before a document.  There is at most one version, which is 1.1 or 1.2, and
at most one meaning of a handle. -/
def directives : Nat → Bool → Reader Bool
  | 0, _ => fail
  | n + 1, found => do
    match ← peek with
    | .versionDirective major minor =>
      skip
      if found || major != 1 || !(minor == 1 || minor == 2) then fail
      else directives n true
    | .tagDirective handle start =>
      skip
      let s ← get
      if (s.handles.lookup handle).isSome then fail
      else
        set { s with handles := s.handles ++ [(handle, start)] }
        directives n found
    | _ => return found

/-- The handles that stand for something without a directive. -/
def standardHandles : List (List Char × List Char) :=
  [(['!'], ['!']), (['!', '!'], "tag:yaml.org,2002:".toList)]

/-- Go past the marks at the end of a document. -/
def skipEnds : Nat → Reader Unit
  | 0 => fail
  | n + 1 => do
    if (← peek) == .documentEnd then
      skip
      skipEnds n

/-- Is there a token at which an explicit document is empty? -/
def endsDocument : Token → Bool
  | .versionDirective _ _ => true
  | .tagDirective _ _ => true
  | .documentStart => true
  | .documentEnd => true
  | .streamEnd => true
  | _ => false

/-- Does a document begin with the token that need not be opened by a mark? -/
def beginsBare : Token → Bool
  | .versionDirective _ _ => false
  | .tagDirective _ _ => false
  | .documentStart => false
  | .streamEnd => false
  | _ => true

/-- Read the root of the first document. -/
def root : Reader Node := do
  let bound ← entryBound
  if beginsBare (← peek) then
    modify fun s => { s with handles := standardHandles }
    node bound .block
  else
    let _ ← directives bound false
    modify fun s => { s with handles := s.handles ++ standardHandles }
    if (← peek) == .documentStart then
      skip
      if endsDocument (← peek) then return .empty else node bound .block
    else fail

/-- Read the only document of a text, if there is one. -/
def document : Reader (Option Node) := do
  if (← peek) == .streamEnd then return none
  else
    let n ← root
    skipEnds (← entryBound)
    if (← peek) == .streamEnd then return some n else fail

end Input

/-- Read the only document of a text from its tokens, if there is one. -/
def Node.ofTokens? (tokens : List Token) : Option (Option Node) :=
  (Input.document.run { tokens, bound := tokens.length + 1 }).map (·.1)

end ApiGraph.Yaml
