import ApiGraph.Decimal.Power
import ApiGraph.Text.Digits

/-!
# Internet addresses

An IPv4 address consists of at most four numbers between dots.  They are written in base ten, with
a zero in front in base eight, with `0x` in base sixteen.  The last number fills all the octets
that the others leave.

An IPv6 address consists of eight groups of hexadecimal digits between colons.  Two colons stand
for groups of zeros, one at least, and the last two groups may be written as an IPv4 address with
four decimal numbers.
-/

namespace ApiGraph.Url

open ApiGraph.Text (number?)

/-- The parts of a text between separators. -/
def splitAt (separator : Char) : List Char → List (List Char)
  | [] => [[]]
  | c :: r =>
    if c == separator then [] :: splitAt separator r
    else
      match splitAt separator r with
      | part :: parts => (c :: part) :: parts
      | [] => [[c]]

/-! ## IPv4 -/

/-- The number that a part of an IPv4 address denotes.  A base without digits denotes zero. -/
def partNumber? : List Char → Option Nat
  | ['0', 'x'] => some 0
  | ['0', 'X'] => some 0
  | '0' :: 'x' :: r => number? 16 r
  | '0' :: 'X' :: r => number? 16 r
  | '0' :: c :: r => number? 8 (c :: r)
  | cs => number? 10 cs

/-- The labels of a domain; an empty one at the end does not count. -/
def labels (domain : List Char) : List (List Char) :=
  let parts := splitAt '.' domain
  if parts.getLast? == some [] then parts.dropLast else parts

/-- Is a domain that ends like this taken for an IPv4 address? -/
def endsInNumber (domain : List Char) : Bool :=
  match (labels domain).getLast? with
  | some last => (!last.isEmpty && last.all Char.isDigit) || (partNumber? last).isSome
  | none => false

/-- Is the domain an IPv4 address? -/
def isIpv4 (domain : List Char) : Bool :=
  let parts := labels domain
  match parts.mapM partNumber? with
  | some numbers =>
    match numbers.getLast? with
    | some last =>
      parts.length ≤ 4 && numbers.dropLast.all (· < 256) &&
        last < Decimal.pow2 (8 * (5 - parts.length))
    | none => false
  | none => false

/-! ## IPv6 -/

/-- Is the text a number below 256 in base ten, without a zero in front? -/
def isOctet (cs : List Char) : Bool :=
  (number? 10 cs).any (· < 256) && (cs.length == 1 || cs.head? != some '0')

/-- Are there four octets between dots? -/
def isDottedQuad (cs : List Char) : Bool :=
  let parts := splitAt '.' cs
  parts.length == 4 && parts.all isOctet

/-- How many groups there are between colons, if all are groups; only the last one may be an IPv4
address, and only with `quadAllowed`. -/
def groupCount? (quadAllowed : Bool) : List (List Char) → Option Nat
  | [] => some 0
  | [group] =>
    if quadAllowed && isDottedQuad group then some 2
    else if group.length ≤ 4 && (number? 16 group).isSome then some 1
    else none
  | group :: groups =>
    if group.length ≤ 4 && (number? 16 group).isSome then
      (groupCount? quadAllowed groups).map (· + 1)
    else none

/-- How many groups a text has, none if it is empty. -/
def groups? (quadAllowed : Bool) (cs : List Char) : Option Nat :=
  if cs.isEmpty then some 0 else groupCount? quadAllowed (splitAt ':' cs)

/-- The texts before and behind the first two colons in a row. -/
def splitCompressed : List Char → Option (List Char × List Char)
  | ':' :: ':' :: r => some ([], r)
  | c :: r => (splitCompressed r).map fun (before, behind) => (c :: before, behind)
  | [] => none

/-- Is the text an IPv6 address? -/
def isIpv6 (cs : List Char) : Bool :=
  match splitCompressed cs with
  | none => groups? true cs == some 8
  | some (before, behind) =>
    match groups? false before, groups? true behind with
    | some m, some n => m + n ≤ 7
    | _, _ => false

end ApiGraph.Url
