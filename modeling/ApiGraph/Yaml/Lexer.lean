import ApiGraph.Decimal.Power
import ApiGraph.Yaml.ScalarText
import ApiGraph.Yaml.Token

/-!
# From a YAML text to its tokens

The lexer goes through the text once.  It knows the column of the innermost block collection and
the collections around it, how many collections in flow style are open, and for each of these
whether the node read last may still turn out to be a key, because a colon follows it on the same
line.  When the colon comes, the token for the key, and if need be the one for the beginning of a
mapping, is put in before that node.

Indentation counts in block style only: a token at a column before that of the innermost
collection closes it.
-/

namespace ApiGraph.Yaml

/-- A node that may turn out to be a key: where it begins, and how many tokens are before it. -/
structure KeyCandidate where
  /-- The node cannot be anything but a key. -/
  required : Bool
  tokensBefore : Nat
  index : Nat
  line : Nat
  column : Nat
  deriving DecidableEq, Repr

/-- What is left to read, and the tokens and open collections so far. -/
structure Lexer where
  cursor : Cursor
  /-- A bound on the steps in the text. -/
  bound : Nat
  /-- How many collections in flow style are open. -/
  flow : Nat := 0
  /-- The column of the innermost block collection, `-1` outside of all. -/
  indent : Int := -1
  /-- The columns of the collections around it. -/
  outer : List Int := []
  /-- May a node begin here that is a key? -/
  keyAllowed : Bool := true
  /-- The last node that may be a key, for each open collection in flow style and outside. -/
  candidates : List (Option KeyCandidate) := [none]
  /-- The tokens so far, the last one first. -/
  tokens : List Token := []
  count : Nat := 0

namespace Lexer

/-- Add a token. -/
def emit (x : Lexer) (t : Token) : Lexer :=
  { x with tokens := t :: x.tokens, count := x.count + 1 }

/-- Put a token in behind the first `n`. -/
def emitAt (x : Lexer) (n : Nat) (t : Token) : Lexer :=
  let k := x.count - n
  { x with tokens := x.tokens.take k ++ t :: x.tokens.drop k, count := x.count + 1 }

/-- Go on behind `n` characters. -/
def advance (x : Lexer) (n : Nat) : Lexer :=
  { x with cursor := x.cursor.skip n }

/-! ## Indentation -/

/-- Close the block collections that are indented more than `column`. -/
def unrollFrom (column : Int) : List Int → Lexer → Lexer
  | [], x => x
  | i :: r, x =>
    if column < x.indent then unrollFrom column r { x.emit .blockEnd with indent := i, outer := r }
    else x

/-- Close the block collections that are indented more than `column`, in block style. -/
def unroll (x : Lexer) (column : Int) : Lexer :=
  if x.flow == 0 then unrollFrom column x.outer x else x

/-- Open a block collection at a column unless there is one, behind the first `n` tokens. -/
def roll (x : Lexer) (column : Nat) (n : Nat) (t : Token) : Lexer :=
  if x.flow == 0 && x.indent < column then
    { x.emitAt n t with indent := column, outer := x.indent :: x.outer }
  else x

/-! ## Candidates for keys -/

/-- Give a candidate up; a required one may not be given up. -/
def dropCandidate (x : Lexer) : Option Lexer :=
  match x.candidates with
  | some k :: r => if k.required then none else some { x with candidates := none :: r }
  | _ => some x

/-- Make the node that begins here a candidate, if keys are allowed here. -/
def saveCandidate (x : Lexer) : Option Lexer :=
  if x.keyAllowed then
    let p := x.cursor
    let k : KeyCandidate :=
      { required := x.flow == 0 && x.indent == p.column
        tokensBefore := x.count
        index := p.index
        line := p.line
        column := p.column }
    x.dropCandidate.map fun x => { x with candidates := some k :: x.candidates.tail }
  else some x

/-- Is the candidate on an earlier line, or more than 1024 characters away? -/
def isStale (p : Cursor) (k : KeyCandidate) : Bool :=
  k.line < p.line || k.index + 1024 < p.index

/-- Give up the candidates that are too far away. -/
def dropStale (x : Lexer) : Option Lexer :=
  if x.candidates.any fun c => c.any fun k => isStale x.cursor k && k.required then none
  else some { x with candidates := x.candidates.map fun c => c.filter fun k => !isStale x.cursor k }

/-! ## Between tokens -/

/-- Go past blanks, comments and line breaks.  Where a node may be a key, tabs are no blanks.  A
byte order mark at the start of the text takes a column like a blank. -/
def skipBetween : Nat → Lexer → Lexer
  | 0, x => x
  | n + 1, x =>
    let p := x.cursor
    let p := if p.index == 0 && p.isAt '\uFEFF' then p.skip 1 else p
    let p := p.skipWhile fun c => c == ' ' || (c == '\t' && (x.flow != 0 || !x.keyAllowed))
    let p := if p.isAt '#' then p.skipWhile fun c => !isBreak c else p
    if p.nextIs isBreak then
      skipBetween n
        { x with cursor := p.readBreak.2, keyAllowed := x.keyAllowed || x.flow == 0 }
    else { x with cursor := p }

/-! ## Tags, anchors and directives -/

/-- May the character stand in a tag? -/
def isTagChar (inBrackets : Bool) (c : Char) : Bool :=
  isWordChar c || ";/?:@&=+$.!~*'()%".toList.contains c ||
    (inBrackets && [',', '[', ']'].contains c)

/-- An octet written as a percent sign and two hexadecimal digits. -/
def percentOctet? : List Char → Option Nat
  | '%' :: a :: b :: _ => Text.number? 16 [a, b]
  | _ => none

/-- How many octets the character takes that begins with the octet. -/
def octetWidth? (octet : Nat) : Option Nat :=
  if octet < 0x80 then some 1
  else if 0xC0 ≤ octet && octet < 0xE0 then some 2
  else if 0xE0 ≤ octet && octet < 0xF0 then some 3
  else if 0xF0 ≤ octet && octet < 0xF8 then some 4
  else none

/-- The bits of further octets of a character, appended to those of the first. -/
def moreOctets : Nat → Nat → List Char → Option Nat
  | 0, n, _ => some n
  | k + 1, n, cs => do
    let octet ← percentOctet? cs
    if 0x80 ≤ octet && octet < 0xC0 then moreOctets k (n * 64 + octet % 64) (cs.drop 3) else none

/-- A character written in octets with percent signs, and how many of them. -/
def percentChar? (cs : List Char) : Option (Char × Nat) := do
  let octet ← percentOctet? cs
  let width ← octetWidth? octet
  let bits := if width == 1 then octet else octet % Decimal.pow2 (7 - width)
  let n ← moreOctets (width - 1) bits (cs.drop 3)
  return (Char.ofNat n, width)

/-- Read the characters of a tag, with a bound on their number. -/
def tagChars (inBrackets : Bool) : Nat → List Char → Cursor → Option (List Char × Cursor)
  | 0, _, _ => none
  | n + 1, text, p =>
    match p.peek? with
    | some c =>
      if c == '%' then do
        let (d, width) ← percentChar? p.rest
        tagChars inBrackets n (text ++ [d]) (p.skip (3 * width))
      else if isTagChar inBrackets c then tagChars inBrackets n (text ++ [c]) (p.skip 1)
      else some (text, p)
    | none => some (text, p)

/-- Read the characters of a tag behind those that were read already; there has to be one. -/
def tagText (bound : Nat) (inBrackets : Bool) (before : List Char) (p : Cursor) :
    Option (List Char × Cursor) := do
  let (text, p) ← tagChars inBrackets bound [] p
  if before.isEmpty && text.isEmpty then none else some (before.drop 1 ++ text, p)

/-- Read an exclamation mark, a word, and an exclamation mark if there is one. -/
def tagHandle (p : Cursor) : Option (List Char × Cursor) :=
  if p.isAt '!' then
    let word := (p.rest.drop 1).takeWhile isWordChar
    let q := p.skip (1 + word.length)
    if q.isAt '!' then some ('!' :: word ++ ['!'], q.skip 1) else some ('!' :: word, q)
  else none

/-- Does the handle end in an exclamation mark of its own? -/
def isFullHandle (handle : List Char) : Bool :=
  2 ≤ handle.length && handle.getLast? == some '!'

/-- Read a tag: its handle and its suffix. -/
def readTag (bound : Nat) (inFlow : Bool) (p : Cursor) : Option (Token × Cursor) := do
  let (t, p) ← (if p.peekAt? 1 == some '<' then do
      let (suffix, p) ← tagText bound true [] (p.skip 2)
      if p.isAt '>' then some (Token.tag [] suffix, p.skip 1) else none
    else do
      let (handle, p) ← tagHandle p
      if isFullHandle handle then
        let (suffix, p) ← tagText bound false [] p
        return (Token.tag handle suffix, p)
      else
        let (suffix, p) ← tagText bound false handle p
        if suffix.isEmpty then return (Token.tag [] ['!'], p)
        else return (Token.tag ['!'] suffix, p))
  if (inFlow && p.isAt ',') || p.blankOrEndAt 0 then some (t, p) else none

/-- Read the name of an anchor or an alias behind its indicator. -/
def readAnchor (p : Cursor) : Option (List Char × Cursor) :=
  let name := (p.rest.drop 1).takeWhile isWordChar
  let p := p.skip (1 + name.length)
  if !name.isEmpty && (p.blankOrEndAt 0 ||
      p.nextIs fun c => "?:,]\x7d%@\x60".toList.contains c) then some (name, p)
  else none

/-- Read a number of at most nine digits. -/
def readNumber (p : Cursor) : Option (Nat × Cursor) :=
  let ds := p.rest.takeWhile Char.isDigit
  if ds.isEmpty || 9 < ds.length then none
  else some (Text.digitsValue 10 ds, p.skip ds.length)

/-- Read a directive from its percent sign to the end of its line. -/
def readDirective (bound : Nat) (p : Cursor) : Option (Token × Cursor) := do
  let name := (p.rest.drop 1).takeWhile isWordChar
  let p := p.skip (1 + name.length)
  if name.isEmpty || !p.blankOrEndAt 0 then none
  else
    let p' := p.skipWhile isBlank
    let (t, p) ← (if name == "YAML".toList then do
        let (major, p) ← readNumber p'
        if p.isAt '.' then
          let (minor, p) ← readNumber (p.skip 1)
          return (Token.versionDirective major minor, p)
        else none
      else if name == "TAG".toList then do
        let (handle, p) ← tagHandle p'
        if (isFullHandle handle || handle == ['!']) && p.nextIs isBlank then
          let (start, p) ← tagText bound true [] (p.skipWhile isBlank)
          if p.blankOrEndAt 0 then return (Token.tagDirective handle start, p) else none
        else none
      else none)
    let p ← skipToBreak p
    return (t, p.readBreak.2)

/-! ## Tokens -/

/-- The end of the text: all block collections end. -/
def atStreamEnd (x : Lexer) : Option Lexer :=
  (x.unroll (-1)).dropCandidate.map fun x => { x.emit .streamEnd with keyAllowed := false }

/-- A mark between documents: all block collections end. -/
def documentMark (x : Lexer) (t : Token) : Option Lexer :=
  (x.unroll (-1)).dropCandidate.map fun x => { (x.advance 3).emit t with keyAllowed := false }

def directive (x : Lexer) : Option Lexer := do
  let x ← (x.unroll (-1)).dropCandidate
  let (t, p) ← readDirective x.bound x.cursor
  return { x.emit t with cursor := p, keyAllowed := false }

/-- Open a collection in flow style, which may itself be a key. -/
def openFlow (x : Lexer) (t : Token) : Option Lexer := do
  let x ← x.saveCandidate
  return { (x.advance 1).emit t with
    flow := x.flow + 1, candidates := none :: x.candidates, keyAllowed := true }

/-- Close a collection in flow style. -/
def closeFlow (x : Lexer) (t : Token) : Option Lexer := do
  let x ← x.dropCandidate
  let candidates := if x.flow == 0 then x.candidates else x.candidates.tail
  return { (x.advance 1).emit t with flow := x.flow - 1, candidates, keyAllowed := false }

def flowEntry (x : Lexer) : Option Lexer := do
  let x ← x.dropCandidate
  return { (x.advance 1).emit .flowEntry with keyAllowed := true }

/-- The dash of an entry.  In block style it may open a sequence. -/
def blockEntry (x : Lexer) : Option Lexer := do
  if x.flow == 0 && !x.keyAllowed then none
  else
    let x ← (x.roll x.cursor.column x.count .blockSequenceStart).dropCandidate
    return { (x.advance 1).emit .blockEntry with keyAllowed := true }

/-- The question mark before a key.  In block style it may open a mapping. -/
def explicitKey (x : Lexer) : Option Lexer := do
  if x.flow == 0 && !x.keyAllowed then none
  else
    let x ← (x.roll x.cursor.column x.count .blockMappingStart).dropCandidate
    return { (x.advance 1).emit .key with keyAllowed := x.flow == 0 }

/-- The colon before a value.  It makes the candidate a key, if there is one. -/
def valueMark (x : Lexer) : Option Lexer :=
  match x.candidates with
  | some k :: r =>
    let x := { x.emitAt k.tokensBefore .key with candidates := none :: r }
    let x := x.roll k.column k.tokensBefore .blockMappingStart
    some { (x.advance 1).emit .value with keyAllowed := false }
  | _ =>
    if x.flow == 0 && !x.keyAllowed then none
    else
      let x := x.roll x.cursor.column x.count .blockMappingStart
      some { (x.advance 1).emit .value with keyAllowed := x.flow == 0 }

/-- An alias or an anchor. -/
def anchor (x : Lexer) (make : List Char → Token) : Option Lexer := do
  let x ← x.saveCandidate
  let (name, p) ← readAnchor x.cursor
  return { x.emit (make name) with cursor := p, keyAllowed := false }

def tag (x : Lexer) : Option Lexer := do
  let x ← x.saveCandidate
  let (t, p) ← readTag x.bound (x.flow != 0) x.cursor
  return { x.emit t with cursor := p, keyAllowed := false }

def blockScalar (x : Lexer) : Option Lexer := do
  let x ← x.dropCandidate
  let (text, p) ← readBlock x.bound x.indent x.cursor
  return { x.emit (.scalar text false) with cursor := p, keyAllowed := true }

def quotedScalar (x : Lexer) (quote : Char) : Option Lexer := do
  let x ← x.saveCandidate
  let (text, p) ← readQuoted x.bound quote x.cursor
  return { x.emit (.scalar text false) with cursor := p, keyAllowed := false }

/-- A plain scalar.  Behind a line break a node may be a key again. -/
def plainScalar (x : Lexer) : Option Lexer := do
  let x ← x.saveCandidate
  let (text, broken, p) ← readPlain x.bound (x.flow != 0) (x.indent + 1).toNat x.cursor
  return { x.emit (.scalar text true) with cursor := p, keyAllowed := broken }

/-- May a plain scalar begin with the character, whatever follows? -/
def startsPlain (c : Char) : Bool :=
  !(isBlank c || isBreak c || "-?:,[]\x7b\x7d#&*!|>'\"%@\x60".toList.contains c)

/-- Read the next token, or the end of the text. -/
def next (x : Lexer) : Option Lexer := do
  let x ← (skipBetween x.bound x).dropStale
  let x := x.unroll x.cursor.column
  let p := x.cursor
  let inFlow := x.flow != 0
  match p.peek? with
  | none => x.atStreamEnd
  | some c =>
    if p.column == 0 && c == '%' then x.directive
    else if p.atDocumentMark '-' then x.documentMark .documentStart
    else if p.atDocumentMark '.' then x.documentMark .documentEnd
    else if c == '[' then x.openFlow .flowSequenceStart
    else if c == '\x7b' then x.openFlow .flowMappingStart
    else if c == ']' then x.closeFlow .flowSequenceEnd
    else if c == '\x7d' then x.closeFlow .flowMappingEnd
    else if c == ',' then x.flowEntry
    else if c == '-' && p.blankOrEndAt 1 then x.blockEntry
    else if c == '?' && (inFlow || p.blankOrEndAt 1) then x.explicitKey
    else if c == ':' && (inFlow || p.blankOrEndAt 1) then x.valueMark
    else if c == '*' then x.anchor .alias
    else if c == '&' then x.anchor .anchor
    else if c == '!' then x.tag
    else if (c == '|' || c == '>') && !inFlow then x.blockScalar
    else if c == '\'' || c == '"' then x.quotedScalar c
    else if startsPlain c || (c == '-' && !(p.peekAt? 1).any isBlank) ||
        (!inFlow && (c == '?' || c == ':')) then x.plainScalar
    else none

/-- Read tokens up to the end of the text, with a bound on their number. -/
def run : Nat → Lexer → Option (List Token)
  | 0, _ => none
  | n + 1, x =>
    match x.next with
    | none => none
    | some x =>
      match x.tokens with
      | .streamEnd :: _ => some x.tokens.reverse
      | _ => run n x

end Lexer

/-- The tokens of a text. -/
def Token.ofText? (cs : List Char) : Option (List Token) :=
  if cs.all isAllowed then
    let bound := cs.length + 2
    Lexer.run bound { cursor := { rest := cs }, bound }
  else none

end ApiGraph.Yaml
