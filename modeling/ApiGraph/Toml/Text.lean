import ApiGraph.Text.Digits

/-!
# Keys and strings of TOML

A string stands in quotes or in apostrophes.  Behind three of them it may go over several lines,
and a line break directly behind them does not count.  Escapes are read only in quotes.

A line ends with a line feed, which a carriage return may precede.  Other control characters than
the tabulator are never part of a text.
-/

namespace ApiGraph.Toml

open ApiGraph.Text (hexChar?)

/-! ## Lines -/

def isBlank (c : Char) : Bool :=
  c == ' ' || c == '\t'

/-- May the character stand in a string or a comment? -/
def isText (c : Char) : Bool :=
  c == '\t' || (' ' ≤ c && c != '\x7f')

def skipBlanks (cs : List Char) : List Char :=
  cs.dropWhile isBlank

/-- Go past a line break. -/
def readBreak? : List Char → Option (List Char)
  | '\n' :: r => some r
  | '\r' :: '\n' :: r => some r
  | _ => none

/-- Go past the rest of a line that may hold only blanks and a comment. -/
def endLine? (cs : List Char) : Option (List Char) :=
  let r := skipBlanks cs
  match if r.head? == some '#' then r.dropWhile isText else r with
  | [] => some []
  | r => readBreak? r

/-- Go past blanks, line breaks and comments; the first argument tells whether the text starts in
a comment. -/
def skipFiller : Bool → List Char → List Char
  | _, [] => []
  | _, '\n' :: r => skipFiller false r
  | _, '\r' :: '\n' :: r => skipFiller false r
  | true, c :: r => if isText c then skipFiller true r else c :: r
  | false, c :: r =>
    if isBlank c then skipFiller false r
    else if c == '#' then skipFiller true r
    else c :: r

/-! ## Strings -/

/-- The character of a one-letter escape. -/
def escape? (c : Char) : Option Char :=
  match c with
  | 'b' => some '\x08'
  | 't' => some '\t'
  | 'n' => some '\n'
  | 'f' => some '\x0c'
  | 'r' => some '\r'
  | '"' => some '"'
  | '\\' => some '\\'
  | _ => none

/-- A text that was read, and the rest. -/
abbrev Taken := Option (List Char × List Char)

/-- Put a character in front of a text that was read. -/
def Taken.cons (c : Char) (t : Taken) : Taken :=
  t.map fun (text, r) => (c :: text, r)

/-- Read a string from behind its opening quote. -/
def quoted : List Char → Taken
  | [] => none
  | '"' :: r => some ([], r)
  | '\\' :: 'u' :: a :: b :: c :: d :: r =>
    (hexChar? [a, b, c, d]).bind fun e => (quoted r).cons e
  | '\\' :: 'U' :: a :: b :: c :: d :: e :: f :: g :: h :: r =>
    (hexChar? [a, b, c, d, e, f, g, h]).bind fun e => (quoted r).cons e
  | '\\' :: e :: r => (escape? e).bind fun e => (quoted r).cons e
  | c :: r => if isText c && c != '\\' then (quoted r).cons c else none

/-- Read a string from behind its opening apostrophe. -/
def literal : List Char → Taken
  | [] => none
  | '\'' :: r => some ([], r)
  | c :: r => if isText c then (literal r).cons c else none

/-- Does a line end behind blanks? -/
def endsInBlanks (cs : List Char) : Bool :=
  (readBreak? (skipBlanks cs)).isSome

/-- Read a string from behind its three opening quotes.  A backslash at the end of a line drops
all blanks and line breaks up to the next character; the first argument tells that they are being
dropped.  One or two quotes directly before the closing ones belong to the string. -/
def longQuoted : Bool → List Char → Taken
  | _, [] => none
  | _, '"' :: '"' :: '"' :: '"' :: '"' :: r => some (['"', '"'], r)
  | _, '"' :: '"' :: '"' :: '"' :: r => some (['"'], r)
  | _, '"' :: '"' :: '"' :: r => some ([], r)
  | dropping, '\r' :: '\n' :: r =>
    if dropping then longQuoted true r else (longQuoted false r).cons '\n'
  | dropping, '\n' :: r => if dropping then longQuoted true r else (longQuoted false r).cons '\n'
  | _, '\\' :: 'u' :: a :: b :: c :: d :: r =>
    (hexChar? [a, b, c, d]).bind fun e => (longQuoted false r).cons e
  | _, '\\' :: 'U' :: a :: b :: c :: d :: e :: f :: g :: h :: r =>
    (hexChar? [a, b, c, d, e, f, g, h]).bind fun e => (longQuoted false r).cons e
  | _, '\\' :: c :: r =>
    if endsInBlanks (c :: r) then longQuoted true (c :: r)
    else (escape? c).bind fun e => (longQuoted false r).cons e
  | dropping, c :: r =>
    if dropping && isBlank c then longQuoted true r
    else if isText c && c != '\\' then (longQuoted false r).cons c
    else none

/-- Read a string from behind its three opening apostrophes. -/
def longLiteral : List Char → Taken
  | [] => none
  | '\'' :: '\'' :: '\'' :: '\'' :: '\'' :: r => some (['\'', '\''], r)
  | '\'' :: '\'' :: '\'' :: '\'' :: r => some (['\''], r)
  | '\'' :: '\'' :: '\'' :: r => some ([], r)
  | '\r' :: '\n' :: r => (longLiteral r).cons '\n'
  | '\n' :: r => (longLiteral r).cons '\n'
  | c :: r => if isText c then (longLiteral r).cons c else none

/-- Go past a line break, if there is one. -/
def skipBreak (cs : List Char) : List Char :=
  (readBreak? cs).getD cs

/-- Read a string of any kind. -/
def string? : List Char → Taken
  | '"' :: '"' :: '"' :: r => longQuoted false (skipBreak r)
  | '"' :: r => quoted r
  | '\'' :: '\'' :: '\'' :: r => longLiteral (skipBreak r)
  | '\'' :: r => literal r
  | _ => none

/-! ## Keys -/

/-- May the character stand in a key without quotes? -/
def isBare (c : Char) : Bool :=
  c.isAlphanum || c == '-' || c == '_'

/-- Read a key without dots. -/
def simpleKey? : List Char → Option (String × List Char)
  | '"' :: r => (quoted r).map fun (t, r) => (String.ofList t, r)
  | '\'' :: r => (literal r).map fun (t, r) => (String.ofList t, r)
  | cs =>
    let name := cs.takeWhile isBare
    if name.isEmpty then none else some (String.ofList name, cs.drop name.length)

/-- Read keys between dots and the blanks around them, at most `count` of them. -/
def keys? : Nat → List Char → Option (List String × List Char)
  | 0, _ => none
  | count + 1, cs => do
    let (k, r) ← simpleKey? (skipBlanks cs)
    match skipBlanks r with
    | '.' :: r =>
      let (ks, r) ← keys? count r
      return (k :: ks, r)
    | r => return ([k], r)

/-- How many keys a dotted key may have, and how deep arrays and tables may be nested. -/
def maxDepth : Nat := 79

/-- Read a key: those before its last dot, the last one, and the rest of the text. -/
def key? (cs : List Char) : Option (List String × String × List Char) := do
  let (ks, r) ← keys? maxDepth cs
  let last ← ks.getLast?
  return (ks.dropLast, last, r)

end ApiGraph.Toml
