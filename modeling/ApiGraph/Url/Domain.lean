import ApiGraph.Text.CodeRange
import ApiGraph.Url.Address
import ApiGraph.Url.Problem
import ApiGraph.Url.Punycode

/-!
# Hosts

The host of a URL stands in brackets if it is an IPv6 address.  Where hosts are domains, escapes
are resolved first, and each character is replaced by what it counts as: capitals by small letters,
wide and decorated characters by plain ones, invisible ones by nothing.  A label in Punycode has to
stand for a label that could not be written otherwise.  A domain that ends in a number is an IPv4
address.  Elsewhere a host is a text without delimiters.
-/

namespace ApiGraph.Url

open ApiGraph.Text (hexValue? inRuns)

/-! ## Escapes -/

/-- The octets of a text, in which a percent sign with two hexadecimal digits stands for one. -/
def octets : List Char → List UInt8
  | '%' :: a :: b :: r =>
    match hexValue? a, hexValue? b with
    | some x, some y => (16 * x + y).toUInt8 :: octets r
    | _, _ => '%'.toNat.toUInt8 :: octets (a :: b :: r)
  | c :: r => String.utf8EncodeChar c ++ octets r
  | [] => []

/-- The text without escapes, if its octets are one. -/
def unescape? (cs : List Char) : Option (List Char) :=
  (String.fromUTF8? ⟨(octets cs).toArray⟩).map String.toList

/-! ## Characters -/

/-- The code points that count as nothing. -/
def ignoredRuns : List (Nat × Nat) :=
  [(0xAD, 0xAD), (0x34F, 0x34F), (0x180B, 0x180D), (0x180F, 0x180F), (0x200B, 0x200B),
    (0x2060, 0x2060), (0x2064, 0x2064), (0xFE00, 0xFE0F), (0xFEFF, 0xFEFF), (0x1BCA0, 0x1BCA3),
    (0xE0100, 0xE01EF)]

/-- The code points that no domain may have: controls, spaces and what is composed with them,
format characters, delimiters of any width, and what no character is assigned to for good. -/
def refusedRuns : List (Nat × Nat) :=
  [(0x7F, 0xA0), (0xA8, 0xA8), (0xAF, 0xAF), (0xB4, 0xB4), (0xB8, 0xB8), (0x2D8, 0x2DD),
    (0x37A, 0x37A), (0x384, 0x385), (0x600, 0x605), (0x61C, 0x61C), (0x6DD, 0x6DD),
    (0x70F, 0x70F), (0x890, 0x891), (0x8E2, 0x8E2), (0x115F, 0x1160), (0x1680, 0x1680),
    (0x17B4, 0x17B5), (0x1806, 0x1806), (0x180E, 0x180E), (0x1FBD, 0x1FBD), (0x1FBF, 0x1FC1),
    (0x1FCD, 0x1FCF), (0x1FDD, 0x1FDF), (0x1FED, 0x1FEE), (0x1FFD, 0x1FFE), (0x2000, 0x200A),
    (0x200C, 0x200F), (0x2017, 0x2017), (0x2024, 0x2026), (0x2028, 0x202F), (0x203E, 0x203E),
    (0x2047, 0x2049), (0x205F, 0x205F), (0x2061, 0x2063), (0x2065, 0x206F), (0x2100, 0x2101),
    (0x2105, 0x2106), (0x2488, 0x249B), (0x2A74, 0x2A74), (0x2FF0, 0x3000), (0x309B, 0x309C),
    (0x3164, 0x3164), (0x33C2, 0x33C2), (0x33C7, 0x33C7), (0x33D8, 0x33D8), (0xE000, 0xF8FF),
    (0xFC5E, 0xFC63), (0xFDD0, 0xFDEF), (0xFDFA, 0xFDFB), (0xFE12, 0xFE13), (0xFE16, 0xFE16),
    (0xFE19, 0xFE19), (0xFE30, 0xFE30), (0xFE47, 0xFE4C), (0xFE52, 0xFE52), (0xFE55, 0xFE56),
    (0xFE5F, 0xFE5F), (0xFE64, 0xFE65), (0xFE68, 0xFE68), (0xFE6A, 0xFE6B), (0xFE70, 0xFE70),
    (0xFE72, 0xFE72), (0xFE74, 0xFE74), (0xFE76, 0xFE76), (0xFE78, 0xFE78), (0xFE7A, 0xFE7A),
    (0xFE7C, 0xFE7C), (0xFE7E, 0xFE7E), (0xFFA0, 0xFFA0), (0xFFE3, 0xFFE3), (0xFFF0, 0xFFFF),
    (0x110BD, 0x110BD), (0x110CD, 0x110CD), (0x13430, 0x1343F), (0x1D173, 0x1D17A),
    (0x1F100, 0x1F100), (0x1FFFE, 0x1FFFF), (0x2FFFE, 0x2FFFF), (0x3FFFE, 0xE00FF),
    (0xE01F0, 0x10FFFF)]

/-- The code points that count as a number in base ten, given as runs with the first number. -/
def numberRuns : List (Nat × Nat × Nat) :=
  [(0xB2, 0xB3, 2), (0xB9, 0xB9, 1), (0x2070, 0x2070, 0), (0x2074, 0x2079, 4),
    (0x2080, 0x2089, 0), (0x2460, 0x2473, 1), (0x24EA, 0x24EA, 0), (0x3251, 0x325F, 21),
    (0x32B1, 0x32BF, 36), (0x1D7CE, 0x1D7D7, 0), (0x1D7D8, 0x1D7E1, 0), (0x1D7E2, 0x1D7EB, 0),
    (0x1D7EC, 0x1D7F5, 0), (0x1D7F6, 0x1D7FF, 0), (0x1FBF0, 0x1FBF9, 0)]

/-- What a character of ASCII counts as, unless it is a control, a space or a delimiter. -/
def foldAscii? (c : Char) : Option (List Char) :=
  if c.toNat ≤ 0x20 || c.toNat == 0x7F || "%#/:<>?@[\\]^|".toList.contains c then none
  else some [c.toLower]

/-- What a character of a domain counts as, unless it is refused. -/
def fold? (c : Char) : Option (List Char) :=
  let n := c.toNat
  if n < 0x80 then foldAscii? c
  else if 0xFF01 ≤ n && n ≤ 0xFF5E then foldAscii? (Char.ofNat (n - 0xFEE0))
  else if n == 0x3002 || n == 0xFF61 then some ['.']
  else if inRuns ignoredRuns n then some []
  else if inRuns refusedRuns n then none
  else
    match numberRuns.find? fun (first, last, _) => first ≤ n && n ≤ last with
    | some (first, _, value) => some (Nat.toDigits 10 (value + n - first))
    | none => some [c]

/-! ## Domains -/

/-- Is the character a diacritic, which has to follow another character? -/
def isDiacritic (c : Char) : Bool :=
  0x300 ≤ c.toNat && c.toNat ≤ 0x36F

/-- May a label be written in Punycode?  It has a character beyond ASCII, and all its characters
count as themselves. -/
def isEncodable (label : List Char) : Bool :=
  label.any (fun c => 0x80 ≤ c.toNat) && label.all (fun c => fold? c == some [c])

/-- Is the label one that a domain may have? -/
def isLabel : List Char → Bool
  | 'x' :: 'n' :: '-' :: '-' :: r =>
    (Punycode.decode? r).any fun label => isEncodable label && !label.head?.any isDiacritic
  | label => !label.head?.any isDiacritic

/-- The domain that a text counts as. -/
def domain? (cs : List Char) : Option (List Char) := do
  let folded ← (← unescape? cs).mapM fold?
  let domain := folded.flatten
  if (splitAt '.' domain).all isLabel then return domain else none

/-! ## Hosts -/

/-- The text in brackets, if the text begins with one; nothing if the other one is missing. -/
def bracketed? : List Char → Option (Option (List Char))
  | '[' :: r => some (if r.getLast? == some ']' then some r.dropLast else none)
  | _ => none

/-- Check a host that is a domain or an address. -/
def checkDomain (cs : List Char) : Except Problem Unit :=
  match bracketed? cs with
  | some address => if address.any isIpv6 then .ok () else .error .ipv6
  | none =>
    match domain? cs with
    | none => .error .domain
    | some domain =>
      if domain.isEmpty then .error .emptyHost
      else if endsInNumber domain && !isIpv4 domain then .error .ipv4
      else .ok ()

/-- The characters that delimit the parts of a URL. -/
def isDelimiter (c : Char) : Bool :=
  "\x00\t\n\r #/:<>?@[\\]^|".toList.contains c

/-- Check a host whose meaning is not known. -/
def checkOpaque (cs : List Char) : Except Problem Unit :=
  match bracketed? cs with
  | some address => if address.any isIpv6 then .ok () else .error .ipv6
  | none => if cs.any isDelimiter then .error .hostCharacter else .ok ()

end ApiGraph.Url
