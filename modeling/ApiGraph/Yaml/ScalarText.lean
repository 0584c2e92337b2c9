import ApiGraph.Text.Digits
import ApiGraph.Yaml.Cursor

/-!
# Texts of scalars

A scalar is written plainly, in quotes, or as a block behind an indicator.  Its text may go over
several lines.  Where lines are folded, a single line break between two lines counts as a blank and
further ones count as line breaks.

All readers take a bound on their steps, for which the length of the text will do.
-/

namespace ApiGraph.Yaml

/-! ## Folding -/

/-- Blanks and line breaks between two parts of a text. -/
structure Gap where
  /-- The blanks, if there is no line break. -/
  blanks : List Char := []
  /-- The first line break. -/
  first : List Char := []
  /-- The line breaks behind it. -/
  more : List Char := []
  /-- Was there a line break? -/
  broken : Bool := false

/-- What the gap counts as in a folded text. -/
def Gap.folded (g : Gap) : List Char :=
  if g.broken then
    if g.first.head? == some '\n' then (if g.more.isEmpty then [' '] else g.more)
    else g.first ++ g.more
  else g.blanks

/-- Go past blanks and line breaks, with a bound on the steps.  With `tabsFrom` a tab at the start
of a line has to be at that column or behind it. -/
def Gap.read (tabsFrom : Nat) : Nat → Gap → Cursor → Option (Gap × Cursor)
  | 0, _, _ => none
  | n + 1, g, p =>
    match p.peek? with
    | none => some (g, p)
    | some c =>
      if isBlank c then
        if g.broken then
          if c == '\t' && p.column < tabsFrom then none else Gap.read tabsFrom n g (p.skip 1)
        else Gap.read tabsFrom n { g with blanks := g.blanks ++ [c] } (p.skip 1)
      else if isBreak c then
        let (b, p) := p.readBreak
        if g.broken then Gap.read tabsFrom n { g with more := g.more ++ b } p
        else Gap.read tabsFrom n { first := b, broken := true } p
      else some (g, p)

/-! ## Plain scalars -/

/-- Is the character an indicator of collections in flow style? -/
def isFlowIndicator (c : Char) : Bool :=
  c == ',' || c == '[' || c == ']' || c == '\x7b' || c == '\x7d'

/-- The characters up to a blank, a line break or an indicator that ends a plain scalar.  In flow
style a colon directly before an indicator is an error. -/
def plainPart (inFlow : Bool) : List Char → Option (List Char)
  | [] => some []
  | c :: r =>
    if isBlank c || isBreak c then some []
    else if c == ':' then
      if inFlow && r.head?.any fun d => isFlowIndicator d || d == '?' then none
      else if r.head?.all fun d => isBlank d || isBreak d then some []
      else (plainPart inFlow r).map (c :: ·)
    else if inFlow && isFlowIndicator c then some []
    else (plainPart inFlow r).map (c :: ·)

/-- Put a text in front of one that was read. -/
def prepend {α : Type} (text : List Char) (r : List Char × α) : List Char × α :=
  (text ++ r.1, r.2)

/-- Read the rest of a plain scalar behind a gap: its text, whether a line break was passed last,
and the place behind it.  The text ends before a comment, a document mark, and in block style
before a line that is not indented by `indent`. -/
def plainRest (bound : Nat) (inFlow : Bool) (indent : Nat) : Nat → Gap → Cursor →
    Option (List Char × Bool × Cursor)
  | 0, _, _ => none
  | n + 1, gap, p =>
    if p.atAnyDocumentMark || p.isAt '#' then some ([], gap.broken, p)
    else
      match plainPart inFlow p.rest with
      | none => none
      | some [] => some ([], gap.broken, p)
      | some part =>
        let text := gap.folded ++ part
        let p := p.skip part.length
        if p.nextIs fun c => isBlank c || isBreak c then
          match Gap.read indent bound {} p with
          | none => none
          | some (gap, q) =>
            if !inFlow && q.column < indent then some (text, gap.broken, q)
            else (plainRest bound inFlow indent n gap q).map (prepend text)
        else some (text, false, p)

/-- Read a plain scalar inside a collection at `indent`. -/
def readPlain (bound : Nat) (inFlow : Bool) (indent : Nat) (p : Cursor) :
    Option (List Char × Bool × Cursor) :=
  plainRest bound inFlow indent bound {} p

/-! ## Quoted scalars -/

/-- The character of a one-letter escape. -/
def escape? (c : Char) : Option Char :=
  match c with
  | '0' => some '\x00'
  | 'a' => some '\x07'
  | 'b' => some '\x08'
  | 't' => some '\t'
  | '\t' => some '\t'
  | 'n' => some '\n'
  | 'v' => some '\x0b'
  | 'f' => some '\x0c'
  | 'r' => some '\r'
  | 'e' => some '\x1b'
  | ' ' => some ' '
  | '"' => some '"'
  | '/' => some '/'
  | '\\' => some '\\'
  | 'N' => some '\u0085'
  | '_' => some '\u00a0'
  | 'L' => some '\u2028'
  | 'P' => some '\u2029'
  | _ => none

/-- How many hexadecimal digits follow the letter of an escape. -/
def escapeWidth? (c : Char) : Option Nat :=
  match c with
  | 'x' => some 2
  | 'u' => some 4
  | 'U' => some 8
  | _ => none

/-- Read an escape behind its backslash: its character and its length. -/
def readEscape : List Char → Option (Char × Nat)
  | [] => none
  | c :: r =>
    match escapeWidth? c with
    | none => (escape? c).map fun e => (e, 1)
    | some width =>
      if (r.take width).length == width then
        (Text.hexChar? (r.take width)).map fun e => (e, width + 1)
      else none

/-- Read the characters of a quoted scalar up to a blank, a line break or the closing quote, with
a bound on the steps.  The second result tells whether an escaped line break ended them. -/
def quotedPart (quote : Char) : Nat → Cursor → Option (List Char × Bool × Cursor)
  | 0, _ => none
  | n + 1, p =>
    match p.rest with
    | [] => some ([], false, p)
    | c :: r =>
      if isBlank c || isBreak c then some ([], false, p)
      else if quote == '\'' && c == '\'' && r.head? == some '\'' then
        (quotedPart quote n (p.skip 2)).map (prepend ['\''])
      else if c == quote then some ([], false, p)
      else if quote == '"' && c == '\\' then
        if r.head?.any isBreak then some ([], true, (p.skip 1).readBreak.2)
        else
          match readEscape r with
          | some (e, width) => (quotedPart quote n (p.skip (width + 1))).map (prepend [e])
          | none => none
      else (quotedPart quote n (p.skip 1)).map (prepend [c])

/-- Read the rest of a quoted scalar up to behind its closing quote. -/
def quotedRest (bound : Nat) (quote : Char) : Nat → Cursor → Option (List Char × Cursor)
  | 0, _ => none
  | n + 1, p =>
    if p.atAnyDocumentMark || p.atEnd then none
    else
      match quotedPart quote bound p with
      | none => none
      | some (part, joined, p) =>
        if p.isAt quote then some (part, p.skip 1)
        else
          match Gap.read 0 bound { broken := joined } p with
          | some (gap, p) => (quotedRest bound quote n p).map (prepend (part ++ gap.folded))
          | none => none

/-- Read a scalar from its opening quote on. -/
def readQuoted (bound : Nat) (quote : Char) (p : Cursor) : Option (List Char × Cursor) :=
  quotedRest bound quote bound (p.skip 1)

/-! ## Block scalars -/

/-- Which line breaks at the end belong to a block scalar. -/
inductive Chomping where
  | strip
  | clip
  | keep
  deriving DecidableEq

/-- Read a sign that tells what happens to the line breaks at the end. -/
def readChomping (p : Cursor) : Option Chomping × Cursor :=
  if p.isAt '+' then (some .keep, p.skip 1)
  else if p.isAt '-' then (some .strip, p.skip 1)
  else (none, p)

/-- Read a digit that tells the indentation; it may not be zero. -/
def readIncrement (p : Cursor) : Option (Option Nat × Cursor) :=
  match p.peek? with
  | some c =>
    if c == '0' then none
    else if c.isDigit then some (some (c.toNat - '0'.toNat), p.skip 1)
    else some (none, p)
  | none => some (none, p)

/-- Read the two indicators of a block scalar, in either order. -/
def readHeader (p : Cursor) : Option (Chomping × Option Nat × Cursor) := do
  match readChomping p with
  | (some chomping, p) =>
    let (increment, p) ← readIncrement p
    return (chomping, increment, p)
  | (none, p) =>
    let (increment, p) ← readIncrement p
    if increment.isSome then
      let (chomping, p) := readChomping p
      return (chomping.getD .clip, increment, p)
    else return (.clip, none, p)

/-- Go past the rest of a line that may hold only blanks and a comment. -/
def skipToBreak (p : Cursor) : Option Cursor :=
  let p := p.skipWhile isBlank
  let p := if p.isAt '#' then p.skipWhile fun c => !isBreak c else p
  if p.breakOrEnd then some p else none

/-- Go past empty lines and the indentation of the next one.  The results are the line breaks, the
widest indentation and the place.  Without a known indentation all spaces belong to it. -/
def readIndentation (indent : Option Nat) : Nat → List Char → Nat → Cursor →
    Option (List Char × Nat × Cursor)
  | 0, _, _, _ => none
  | n + 1, breaks, widest, p =>
    let spaces := (p.rest.takeWhile (· == ' ')).length
    let p := match indent with
      | some i => p.skip (min spaces (i - p.column))
      | none => p.skip spaces
    let widest := max widest p.column
    if p.isAt '\t' && (match indent with
        | some i => p.column < i
        | none => true) then none
    else if p.nextIs isBreak then
      let (b, p) := p.readBreak
      readIndentation indent n (breaks ++ b) widest p
    else some (breaks, widest, p)

/-- Read the lines of a block scalar that are indented by `indent`, with a bound on their number.
`first` is the line break before the next line, `more` those behind it, and `blank` tells whether
the last line began with a blank.  The results are the text and the last two kinds of breaks. -/
def blockLines (bound : Nat) (folded : Bool) (indent : Nat) : Nat → List Char → List Char →
    Bool → Cursor → Option (List Char × List Char × List Char × Cursor)
  | 0, _, _, _, _ => none
  | n + 1, first, more, blank, p =>
    if p.column == indent && !p.atEnd then
      let startsBlank := p.nextIs isBlank
      let folds := folded && first.head? == some '\n' && !blank && !startsBlank
      let joint := if folds then (if more.isEmpty then [' '] else more) else first ++ more
      let line := p.rest.takeWhile fun c => !isBreak c
      let (first, p) := (p.skip line.length).readBreak
      match readIndentation (some indent) bound [] 0 p with
      | some (more, _, p) =>
        (blockLines bound folded indent n first more startsBlank p).map (prepend (joint ++ line))
      | none => none
    else some ([], first, more, p)

/-- Read a block scalar from its indicator on, inside a collection at column `parent`, which is
`-1` outside of all collections. -/
def readBlock (bound : Nat) (parent : Int) (p : Cursor) : Option (List Char × Cursor) := do
  let folded := p.isAt '>'
  let (chomping, increment, p) ← readHeader (p.skip 1)
  let p ← skipToBreak p
  let p := p.readBreak.2
  let known := increment.map fun i => if 0 ≤ parent then parent.toNat + i else i
  let (breaks, widest, p) ← readIndentation known bound [] 0 p
  let indent := known.getD (max widest (max (parent + 1).toNat 1))
  let (text, first, more, p) ← blockLines bound folded indent bound [] breaks false p
  let text := if chomping == .strip then text else text ++ first
  return (if chomping == .keep then text ++ more else text, p)

end ApiGraph.Yaml
