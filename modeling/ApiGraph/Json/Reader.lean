import ApiGraph.Json.Tree
import ApiGraph.Text.Digits

/-!
# Reading JSON text

`Tree.read?` reads a JSON text into a tree, `Json.read?` into a value.
-/

namespace ApiGraph.Json

/-- What stands in a string: a character, or an escape that gives a 16-bit unit. -/
inductive StringUnit where
  | char (c : Char)
  | escaped (code : Nat)

/-- The character of a one-letter escape. -/
def shortEscape? (c : Char) : Option Char :=
  match c with
  | '"' => some '"'
  | '\\' => some '\\'
  | '/' => some '/'
  | 'b' => some '\x08'
  | 'f' => some '\x0c'
  | 'n' => some '\n'
  | 'r' => some '\r'
  | 't' => some '\t'
  | _ => none

/-- The text of a string: each high surrogate has to be followed by a low one, and the two are one
character. -/
def joinUnits : List StringUnit → Option (List Char)
  | [] => some []
  | .char c :: r => (joinUnits r).map (c :: ·)
  | .escaped high :: .escaped low :: r =>
    if 0xD800 ≤ high && high < 0xDC00 then
      if 0xDC00 ≤ low && low < 0xE000 then
        (joinUnits r).map
          (Char.ofNat (0x10000 + (high - 0xD800) * 0x400 + (low - 0xDC00)) :: ·)
      else none
    else if 0xDC00 ≤ high && high < 0xE000 then none
    else (joinUnits (.escaped low :: r)).map (Char.ofNat high :: ·)
  | .escaped code :: r =>
    if 0xD800 ≤ code && code < 0xE000 then none
    else (joinUnits r).map (Char.ofNat code :: ·)

namespace Reader

/-- May the character stand between the parts of a text? -/
def isSpace (c : Char) : Bool :=
  c == ' ' || c == '\t' || c == '\n' || c == '\r'

def skipSpace (cs : List Char) : List Char :=
  cs.dropWhile isSpace

/-- Read a string from behind its opening quote to behind its closing one. -/
def stringUnits : List Char → Option (List StringUnit × List Char)
  | [] => none
  | '"' :: r => some ([], r)
  | '\\' :: 'u' :: a :: b :: c :: d :: r => do
    let code ← Text.number? 16 [a, b, c, d]
    let (us, rest) ← stringUnits r
    return (.escaped code :: us, rest)
  | '\\' :: e :: r => do
    let c ← shortEscape? e
    let (us, rest) ← stringUnits r
    return (.char c :: us, rest)
  | c :: r =>
    if c.toNat < 0x20 || c == '\\' then none
    else (stringUnits r).map fun (us, rest) => (.char c :: us, rest)

/-- Read a string from behind its opening quote: its text, if it has one. -/
def string (cs : List Char) : Option (Option String × List Char) :=
  (stringUnits cs).map fun (us, rest) => ((joinUnits us).map String.ofList, rest)

/-- The digits at the start of a text, and the rest. -/
def digits (cs : List Char) : List Char × List Char :=
  (cs.takeWhile Char.isDigit, cs.dropWhile Char.isDigit)

/-- The digits before the point: a zero alone, or digits that begin with another one. -/
def whole : List Char → Option (List Char × List Char)
  | '0' :: r => if (digits r).1.isEmpty then some (['0'], r) else none
  | cs => if (digits cs).1.isEmpty then none else some (digits cs)

/-- The digits after the point, none if there is no point. -/
def fraction : List Char → Option (List Char × List Char)
  | '.' :: r => if (digits r).1.isEmpty then none else some (digits r)
  | cs => some ([], cs)

/-- The digits of an exponent, behind its sign. -/
def exponentDigits (negative : Bool) (cs : List Char) :
    Option (Option (Bool × List Char) × List Char) :=
  if (digits cs).1.isEmpty then none else some (some (negative, (digits cs).1), (digits cs).2)

/-- The exponent, if there is one. -/
def exponent : List Char → Option (Option (Bool × List Char) × List Char)
  | c :: r =>
    if c == 'e' || c == 'E' then
      match r with
      | '+' :: r => exponentDigits false r
      | '-' :: r => exponentDigits true r
      | r => exponentDigits false r
    else some (none, c :: r)
  | [] => some (none, [])

/-- Read a number. -/
def number (cs : List Char) : Option (Literal × List Char) := do
  let (negative, cs) := match cs with
    | '-' :: r => (true, r)
    | cs => (false, cs)
  let (w, cs) ← whole cs
  let (f, cs) ← fraction cs
  let (e, cs) ← exponent cs
  return (⟨negative, w, f, e⟩, cs)

mutual

/-- Read a value.  The first argument bounds the nesting of calls. -/
def value : Nat → List Char → Option (Tree × List Char)
  | 0, _ => none
  | n + 1, cs =>
    match skipSpace cs with
    | 'n' :: 'u' :: 'l' :: 'l' :: r => some (.null, r)
    | 't' :: 'r' :: 'u' :: 'e' :: r => some (.bool true, r)
    | 'f' :: 'a' :: 'l' :: 's' :: 'e' :: r => some (.bool false, r)
    | '"' :: r => (string r).map fun (s, r) => (.string s, r)
    | '[' :: r =>
      match skipSpace r with
      | ']' :: r => some (.array [], r)
      | r => (arrayItems n r).map fun (is, r) => (.array is, r)
    | '\x7b' :: r =>
      match skipSpace r with
      | '\x7d' :: r => some (.object [], r)
      | r => (objectMembers n r).map fun (ms, r) => (.object ms, r)
    | r => (number r).map fun (l, r) => (.number l, r)

/-- Read items up to the end of the array; there is at least one. -/
def arrayItems : Nat → List Char → Option (List Tree × List Char)
  | 0, _ => none
  | n + 1, cs =>
    (value n cs).bind fun (v, r) =>
      match skipSpace r with
      | ',' :: r => (arrayItems n r).map fun (vs, r) => (v :: vs, r)
      | ']' :: r => some ([v], r)
      | _ => none

/-- Read members up to the end of the object; there is at least one. -/
def objectMembers : Nat → List Char → Option (List (Option String × Tree) × List Char)
  | 0, _ => none
  | n + 1, cs =>
    match skipSpace cs with
    | '"' :: r =>
      (string r).bind fun (k, r) =>
        match skipSpace r with
        | ':' :: r =>
          (value n r).bind fun (v, r) =>
            match skipSpace r with
            | ',' :: r => (objectMembers n r).map fun (ms, r) => ((k, v) :: ms, r)
            | '\x7d' :: r => some ([(k, v)], r)
            | _ => none
        | _ => none
    | _ => none

end

end Reader

open Reader in
/-- Read a whole text.  Every second call takes a character, so twice the length bounds them. -/
def Tree.read? (cs : List Char) : Option Tree :=
  match value (2 * cs.length + 2) cs with
  | some (t, r) => if (skipSpace r).isEmpty then some t else none
  | none => none

/-- Read a JSON text. -/
def read? (s : String) : Option Json :=
  (Tree.read? s.toList).bind (Tree.value? maxDepth)

end ApiGraph.Json
