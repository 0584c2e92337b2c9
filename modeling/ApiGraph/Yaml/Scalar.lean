import ApiGraph.Decimal.Binary64
import ApiGraph.Json.Value
import ApiGraph.Yaml.ScalarText

/-!
# Values of scalars

A plain scalar without a tag may spell null, a truth value, an integer or a float, and is a text
otherwise.  Integers are written in base ten, or behind `0x`, `0o` or `0b` in another base; digits
with a zero in front are a text.  A scalar in quotes and a block scalar are texts.

A tag of the standard asks for one kind of value, which the scalar then has to spell, however it is
written.  A tag of the document's own is an error, and any other tag asks for a text.
-/

namespace ApiGraph.Yaml

open ApiGraph.Decimal (Binary64 inSigned inUnsigned)
open ApiGraph.Text (number? takeSign)

/-! ## Spellings -/

/-- Does the scalar spell null? -/
def spellsNull (cs : List Char) : Bool :=
  ["null", "Null", "NULL", "~"].contains (String.ofList cs)

/-- The truth value that a scalar spells. -/
def bool? (cs : List Char) : Option Bool :=
  if ["true", "True", "TRUE"].contains (String.ofList cs) then some true
  else if ["false", "False", "FALSE"].contains (String.ofList cs) then some false
  else none

/-- Are there only digits, with a zero in front of others? -/
def hasLeadingZero : List Char → Bool
  | '0' :: c :: r => (c :: r).all Char.isDigit
  | _ => false

/-- The number that a scalar without a sign spells as an integer. -/
def magnitude? : List Char → Option Nat
  | '0' :: 'x' :: r => number? 16 r
  | '0' :: 'o' :: r => number? 8 r
  | '0' :: 'b' :: r => number? 2 r
  | cs => if hasLeadingZero cs then none else number? 10 cs

/-- The integer that a scalar spells. -/
def integer? (cs : List Char) : Option Int :=
  let (negative, r) := takeSign cs
  (magnitude? r).map fun n => if negative then -n else n

/-- Is the integer in the signed or the unsigned 64-bit range? -/
def inRange (n : Int) : Bool :=
  inSigned 63 n || inUnsigned 64 n

/-- Is the integer in the signed or the unsigned 128-bit range?  Such an integer is never taken for
a float. -/
def inWideRange (n : Int) : Bool :=
  inSigned 127 n || inUnsigned 128 n

/-- The exponent at the end of a float, zero if there is none. -/
def exponent? : List Char → Option Int
  | [] => some 0
  | c :: r =>
    if c == 'e' || c == 'E' then
      let (negative, digits) := takeSign r
      (number? 10 digits).map fun n => if negative then -n else n
    else none

/-- The number that a scalar without a sign spells as a float, if it is within the format.  There
is a digit before the point or behind it. -/
def decimal? (negative : Bool) (cs : List Char) : Option Binary64 :=
  let whole := cs.takeWhile Char.isDigit
  let (fraction, rest) := match cs.dropWhile Char.isDigit with
    | '.' :: r => (r.takeWhile Char.isDigit, r.dropWhile Char.isDigit)
    | r => ([], r)
  do
    let digits ← number? 10 (whole ++ fraction)
    let e ← exponent? rest
    Binary64.ofDecimal negative digits (e - fraction.length)

/-- Does the scalar spell infinity or no number? -/
def spellsNonFinite (cs : List Char) : Bool :=
  [".inf", ".Inf", ".INF", "+.inf", "+.Inf", "+.INF", "-.inf", "-.Inf", "-.INF", ".nan", ".NaN",
    ".NAN"].contains (String.ofList cs)

/-- The value that a scalar spells as a float: null, unless the float is finite. -/
def float? (cs : List Char) : Option Json :=
  if spellsNonFinite cs then some .null
  else
    let (negative, r) := takeSign cs
    (decimal? negative r).map fun x => .number (.float x)

/-! ## Values -/

/-- The value of a plain scalar that is neither null nor a truth value nor an integer. -/
def floatOrText (cs : List Char) : Json :=
  if hasLeadingZero (takeSign cs).2 then .string (String.ofList cs)
  else (float? cs).getD (.string (String.ofList cs))

/-- The value of a plain scalar without a tag.  There is none for an integer just beyond the
ranges. -/
def plainValue? (cs : List Char) : Option Json :=
  if cs.isEmpty || spellsNull cs then some .null
  else
    match bool? cs, integer? cs with
    | some b, _ => some (.bool b)
    | none, none => some (floatOrText cs)
    | none, some n =>
      if inRange n then some (.number (.integer n))
      else if inWideRange n then none
      else some (floatOrText cs)

/-- Does the tag belong to the document alone? -/
def isLocalTag (tag : Option (List Char)) : Bool :=
  tag.any fun t => t.head? == some '!'

/-- The value of a scalar with a tag. -/
def taggedValue? (tag : List Char) (cs : List Char) : Option Json :=
  match String.ofList tag with
  | "tag:yaml.org,2002:null" => if spellsNull cs then some .null else none
  | "tag:yaml.org,2002:bool" => (bool? cs).map .bool
  | "tag:yaml.org,2002:int" =>
    (integer? cs).bind fun n => if inRange n then some (.number (.integer n)) else none
  | "tag:yaml.org,2002:float" => float? cs
  | _ => if isLocalTag (some tag) then none else some (.string (String.ofList cs))

/-- The value of a scalar. -/
def scalarValue? (text : List Char) (plain : Bool) (tag : Option (List Char)) : Option Json :=
  match tag with
  | some t => taggedValue? t text
  | none => if plain then plainValue? text else some (.string (String.ofList text))

end ApiGraph.Yaml
