import ApiGraph.Url.Domain

/-!
# Absolute URLs

An absolute URL begins with a scheme and a colon.  Some schemes have hosts that are domains: there
any slashes, also backslashes, lead on to the host, which has to be there.  A file need not have a
host, and has one only behind two slashes; so have all other schemes.  What stands in front of the
host up to the last at sign is left alone.

`Url.check` tells what is wrong with a text.  Blanks and controls around it and line breaks and
tabulators inside it do not count.
-/

namespace ApiGraph.Url

/-- What a scheme makes of the text behind it. -/
inductive Scheme where
  | file
  /-- Hosts are domains. -/
  | web
  | other
  deriving DecidableEq, Repr

def Scheme.ofName (name : List Char) : Scheme :=
  match String.ofList (name.map Char.toLower) with
  | "file" => .file
  | "http" => .web
  | "https" => .web
  | "ws" => .web
  | "wss" => .web
  | "ftp" => .web
  | _ => .other

/-- Does the scheme take a backslash for a slash? -/
def Scheme.isSpecial (s : Scheme) : Bool :=
  s != .other

/-- Split a text into its scheme and what stands behind the colon. -/
def splitScheme (cs : List Char) : Option (Scheme × List Char) :=
  let name := cs.takeWhile fun c => c.isAlphanum || c == '+' || c == '-' || c == '.'
  match cs.drop name.length with
  | ':' :: r => if name.head?.any Char.isAlpha then some (Scheme.ofName name, r) else none
  | _ => none

def isSlash (c : Char) : Bool :=
  c == '/' || c == '\\'

/-- Does the path, the query or the fragment begin with the character? -/
def endsAuthority (special : Bool) (c : Char) : Bool :=
  c == '/' || c == '?' || c == '#' || (special && c == '\\')

/-! ## User, host and port -/

/-- The texts before and behind the last at sign, if there is one. -/
def splitUser (cs : List Char) : Option (List Char × List Char) :=
  let behind := (cs.reverse.takeWhile (· != '@')).reverse
  if behind.length < cs.length then some (cs.take (cs.length - behind.length - 1), behind) else none

/-- Split a text at the first colon that is not in brackets: the host, and the rest from the colon
on. -/
def splitHost : Bool → List Char → List Char × List Char
  | _, [] => ([], [])
  | inBrackets, c :: r =>
    if c == ':' && !inBrackets then ([], c :: r)
    else
      let inside := if c == '[' then true else if c == ']' then false else inBrackets
      let (host, rest) := splitHost inside r
      (c :: host, rest)

/-- Check a port and what follows it; there may be a backslash behind it. -/
def checkPort (cs : List Char) : Except Problem Unit :=
  let digits := cs.takeWhile Char.isDigit
  let next := (cs.drop digits.length).head?
  if Text.digitsValue 10 digits < Decimal.pow2 16 && next.all (· == '\\') then .ok ()
  else .error .port

/-- Check a host with the port behind it. -/
def checkHost (scheme : Scheme) (cs : List Char) : Except Problem Unit := do
  let (host, rest) := splitHost false cs
  if host.isEmpty && (scheme == .web || !rest.isEmpty) then .error .emptyHost
  else if scheme == .other then checkOpaque host
  else checkDomain host
  match rest with
  | _ :: port => checkPort port
  | [] => .ok ()

/-- Check what stands behind the slashes.  A user has to have a host, and there has to be a host
behind an at sign alone unless nothing follows at all. -/
def checkAuthority (scheme : Scheme) (cs : List Char) : Except Problem Unit :=
  let isEnd := endsAuthority scheme.isSpecial
  let authority := cs.takeWhile fun c => !isEnd c
  match splitUser authority with
  | none => checkHost scheme authority
  | some ([], host) =>
    if host.isEmpty && authority.length < cs.length then .error .emptyHost
    else checkHost scheme host
  | some (user, host) => do
    checkHost scheme host
    if host.isEmpty && user != [':'] then .error .emptyHost else .ok ()

/-! ## Files -/

/-- Does the text name a drive? -/
def isDrive : List Char → Bool
  | [c, mark] => c.isAlpha && (mark == ':' || mark == '|')
  | _ => false

/-- Check the host of a file, which may be missing. -/
def checkFile : List Char → Except Problem Unit
  | a :: b :: r =>
    let host := r.takeWhile fun c => !endsAuthority true c
    if isSlash a && isSlash b && !host.isEmpty && !isDrive host then checkDomain host else .ok ()
  | _ => .ok ()

/-! ## Texts -/

/-- The part of a text that counts. -/
def significant (text : String) : List Char :=
  let isOuter (c : Char) : Bool := c ≤ ' '
  let trimmed := ((text.toList.dropWhile isOuter).reverse.dropWhile isOuter).reverse
  trimmed.filter fun c => c != '\t' && c != '\n' && c != '\r'

/-- Check that a text is an absolute URL. -/
def check (text : String) : Except Problem Unit :=
  match splitScheme (significant text) with
  | none => .error .noScheme
  | some (.file, r) => checkFile r
  | some (.web, r) => checkAuthority .web (r.dropWhile isSlash)
  | some (.other, r) =>
    match r with
    | '/' :: '/' :: r => checkAuthority .other r
    | _ => .ok ()

end ApiGraph.Url
