/-!
# Places in a YAML text

A cursor is what is left of a text together with the place: how many characters lie behind it, and
its line and column.  A carriage return with the line feed behind it is one line break.
-/

namespace ApiGraph.Yaml

/-- A place in a text. -/
structure Cursor where
  rest : List Char
  index : Nat := 0
  line : Nat := 0
  column : Nat := 0

/-- A space or a tab. -/
def isBlank (c : Char) : Bool :=
  c == ' ' || c == '\t'

def isBreak (c : Char) : Bool :=
  c == '\r' || c == '\n' || c == '\u0085' || c == '\u2028' || c == '\u2029'

/-- May the character stand in a YAML text? -/
def isAllowed (c : Char) : Bool :=
  let n := c.toNat
  n == 9 || n == 10 || n == 13 || (0x20 ≤ n && n ≤ 0x7E) || n == 0x85 ||
    (0xA0 ≤ n && n ≤ 0xD7FF) || (0xE000 ≤ n && n ≤ 0xFFFD) || 0x10000 ≤ n

/-- Is the character part of the words in directives, anchors and tag handles? -/
def isWordChar (c : Char) : Bool :=
  c.isAlphanum || c == '_' || c == '-'

namespace Cursor

/-- The next character. -/
def peek? (p : Cursor) : Option Char :=
  p.rest.head?

/-- The character after the next `n`. -/
def peekAt? (p : Cursor) (n : Nat) : Option Char :=
  p.rest[n]?

/-- Is the next character `c`? -/
def isAt (p : Cursor) (c : Char) : Bool :=
  p.peek? == some c

/-- Does the next character satisfy `q`?  At the end none does. -/
def nextIs (p : Cursor) (q : Char → Bool) : Bool :=
  p.peek?.any q

/-- Is the character after the next `n` a blank or a line break, or is there none? -/
def blankOrEndAt (p : Cursor) (n : Nat) : Bool :=
  (p.peekAt? n).all fun c => isBlank c || isBreak c

/-- Is the next character a line break, or is there none? -/
def breakOrEnd (p : Cursor) : Bool :=
  p.peek?.all isBreak

def atEnd (p : Cursor) : Bool :=
  p.rest.isEmpty

/-- Go past `n` characters of the same line. -/
def skip (p : Cursor) (n : Nat) : Cursor :=
  { p with rest := p.rest.drop n, index := p.index + n, column := p.column + n }

/-- Go past the characters that satisfy `q`, none of which may be a line break. -/
def skipWhile (p : Cursor) (q : Char → Bool) : Cursor :=
  p.skip (p.rest.takeWhile q).length

/-- Go past `length` characters that are one line break. -/
def skipLine (p : Cursor) (length : Nat) : Cursor :=
  { rest := p.rest.drop length, index := p.index + length, line := p.line + 1, column := 0 }

/-- Go past the line break that is next: what it counts as in a text, and the place behind it. -/
def readBreak (p : Cursor) : List Char × Cursor :=
  match p.rest with
  | '\r' :: '\n' :: _ => (['\n'], p.skipLine 2)
  | c :: _ =>
    if c == '\u2028' || c == '\u2029' then ([c], p.skipLine 1)
    else if isBreak c then (['\n'], p.skipLine 1)
    else ([], p)
  | [] => ([], p)

/-- Is there a mark at the start of a line that separates documents? -/
def atDocumentMark (p : Cursor) (c : Char) : Bool :=
  p.column == 0 && [c, c, c].isPrefixOf p.rest && p.blankOrEndAt 3

/-- Is there a mark at the start of a line that begins or ends a document? -/
def atAnyDocumentMark (p : Cursor) : Bool :=
  p.atDocumentMark '-' || p.atDocumentMark '.'

end Cursor

end ApiGraph.Yaml
