import ApiGraph.GraphQL.Name

/-!
# Tokens of the schema definition language

A text consists of names, numbers, strings, block strings and punctuation.  Between them there may
be blanks, commas, byte order marks and comments, which end at the end of their line.

A block string ends at the first three quotes without a backslash before them.  It may hold tabs,
line breaks and the characters from `U+0020` to `U+FFFF`; any other character cannot be read at
all, which is worse than a token that is merely wrong.
-/

namespace ApiGraph.GraphQL.Sdl

/-- What a text is read as, piece by piece. -/
inductive Token where
  | name (text : String)
  | punctuation (c : Char)
  | spread
  | integer (text : List Char)
  | float (text : List Char)
  /-- The text between the quotes, with its escapes. -/
  | string (raw : List Char)
  /-- The text between the delimiters, with its escapes. -/
  | block (raw : List Char)
  /-- What is no token. -/
  | malformed
  /-- A block string with a character that cannot be read. -/
  | unreadable
  deriving DecidableEq, Repr

namespace Token

/-- May the character stand in a block string? -/
def isBlockChar (c : Char) : Bool :=
  c == '\t' || c == '\n' || c == '\r' || (0x20 ≤ c.toNat && c.toNat ≤ 0xFFFF)

/-- Read a block string from behind its opening delimiter to behind its closing one; without a
closing one there is only a token for what is wrong. -/
def scanBlock : List Char → Except Token (List Char × List Char)
  | '"' :: '"' :: '"' :: r => .ok ([], r)
  | '\\' :: '"' :: '"' :: '"' :: r =>
    (scanBlock r).map fun (raw, rest) => ('\\' :: '"' :: '"' :: '"' :: raw, rest)
  | c :: r =>
    if isBlockChar c then (scanBlock r).map fun (raw, rest) => (c :: raw, rest)
    else .error .unreadable
  | [] => .error .malformed

/-- The text that a block string stands for, line by line as it is written: an escaped delimiter
is the delimiter. -/
def unescapeBlock : List Char → List Char
  | '\\' :: '"' :: '"' :: '"' :: r => '"' :: '"' :: '"' :: unescapeBlock r
  | c :: r => c :: unescapeBlock r
  | [] => []

def isHexDigit (c : Char) : Bool :=
  c.isDigit || ('a' ≤ c && c ≤ 'f') || ('A' ≤ c && c ≤ 'F')

/-- May the character stand for itself in a string? -/
def isStringChar (c : Char) : Bool :=
  c == '\t' || (0x20 ≤ c.toNat && c.toNat ≤ 0xFFFF && c != '"' && c != '\\')

/-- Read a string from behind its opening quote to behind its closing one. -/
def scanString : List Char → Option (List Char × List Char)
  | '"' :: r => some ([], r)
  | '\\' :: 'u' :: a :: b :: c :: d :: r =>
    if [a, b, c, d].all isHexDigit then
      (scanString r).map fun (raw, rest) => ('\\' :: 'u' :: a :: b :: c :: d :: raw, rest)
    else none
  | '\\' :: e :: r =>
    if ['"', '\\', '/', 'b', 'f', 'n', 'r', 't'].contains e then
      (scanString r).map fun (raw, rest) => ('\\' :: e :: raw, rest)
    else none
  | c :: r =>
    if isStringChar c then (scanString r).map fun (raw, rest) => (c :: raw, rest) else none
  | [] => none

/-- May a name begin with the character? -/
def isNameStart (c : Char) : Bool :=
  c == '_' || c.isAlpha

/-- Split off the digits at the start. -/
def spanDigits (cs : List Char) : List Char × List Char :=
  (cs.takeWhile Char.isDigit, cs.dropWhile Char.isDigit)

/-- Split off the part of a number behind a point. -/
def spanFraction : List Char → List Char × List Char
  | '.' :: r => if (spanDigits r).1.isEmpty then ([], '.' :: r)
    else ('.' :: (spanDigits r).1, (spanDigits r).2)
  | cs => ([], cs)

/-- Split off the sign of an exponent. -/
def spanSign : List Char → List Char × List Char
  | '+' :: r => (['+'], r)
  | '-' :: r => (['-'], r)
  | cs => ([], cs)

/-- Split off the exponent of a number. -/
def spanExponent : List Char → List Char × List Char
  | c :: r =>
    if c == 'e' || c == 'E' then
      let (sign, r') := spanSign r
      let (ds, rest) := spanDigits r'
      if ds.isEmpty then ([], c :: r) else (c :: sign ++ ds, rest)
    else ([], c :: r)
  | [] => ([], [])

/-- Does something stand directly behind a number that must not? -/
def continuesNumber : List Char → Bool
  | c :: _ => c == '.' || isNameStart c || c.isDigit
  | [] => false

/-- Read a number without its sign. -/
def scanNumber (sign : List Char) (cs : List Char) : Token × List Char :=
  let (whole, r) := match cs with
    | '0' :: r => (['0'], r)
    | cs => spanDigits cs
  let (fraction, r) := spanFraction r
  let (exponent, r) := spanExponent r
  if whole.isEmpty || continuesNumber r then (.malformed, r)
  else if fraction.isEmpty && exponent.isEmpty then (.integer (sign ++ whole), r)
  else (.float (sign ++ whole ++ fraction ++ exponent), r)

/-- Is the character skipped between tokens? -/
def isIgnored (c : Char) : Bool :=
  c == ' ' || c == '\t' || c == '\n' || c == '\r' || c == '\x0c' || c == ',' || c == '\uFEFF'

def isPunctuation (c : Char) : Bool :=
  ['!', '$', '&', '(', ')', ':', '=', '@', '[', ']', '\x7b', '|', '\x7d'].contains c

/-- Does the character stay inside a comment? -/
def isCommentChar (c : Char) : Bool :=
  c != '\n' && c != '\r'

/-- Read the token at the start of a text that does not begin with something to skip. -/
def scan : List Char → Token × List Char
  | '"' :: '"' :: '"' :: r =>
    match scanBlock r with
    | .ok (raw, rest) => (.block raw, rest)
    | .error t => (t, [])
  | '"' :: r =>
    match scanString r with
    | some (raw, rest) => (.string raw, rest)
    | none => (.malformed, [])
  | '.' :: '.' :: '.' :: r => (.spread, r)
  | '-' :: r => scanNumber ['-'] r
  | c :: r =>
    if isNameStart c then
      (.name (String.ofList (c :: r.takeWhile isNameChar)), r.dropWhile isNameChar)
    else if c.isDigit then scanNumber [] (c :: r)
    else if isPunctuation c then (.punctuation c, r)
    else (.malformed, r)
  | [] => (.malformed, [])

/-- The tokens of a text, with a bound on the steps.  There are none behind one that is wrong. -/
def scanAll : Nat → List Char → List Token
  | 0, _ => []
  | _ + 1, [] => []
  | n + 1, c :: r =>
    if isIgnored c then scanAll n r
    else if c == '#' then scanAll n (r.dropWhile isCommentChar)
    else
      match scan (c :: r) with
      | (.malformed, _) => [.malformed]
      | (.unreadable, _) => [.unreadable]
      | (t, rest) => t :: scanAll n rest

/-- The tokens of a text.  Every step takes a character. -/
def ofText (cs : List Char) : List Token :=
  scanAll cs.length cs

end Token

end ApiGraph.GraphQL.Sdl
