import ApiGraph.GraphQL.Sdl.Document
import ApiGraph.GraphQL.Sdl.Token

/-!
# Reading documents

A reader takes a list of tokens to what it has read and the tokens behind it.  The next token always
settles how to go on, so a reader that fails leaves the first token that cannot continue a
document.  If that is a token that cannot be read at all, reading breaks off.

All keywords are names too.
-/

namespace ApiGraph.GraphQL.Sdl

/-- Why a text is not read. -/
inductive Failure where
  /-- The text is no document. -/
  | malformed
  /-- A block string holds a character that cannot be read. -/
  | unreadable
  deriving DecidableEq, Repr

/-- Takes tokens to a result and the tokens behind it, or to the tokens where it failed. -/
def Reader (α : Type) := List Token → Except (List Token) (α × List Token)

namespace Reader

instance : Monad Reader where
  pure a := fun ts => .ok (a, ts)
  bind p f := fun ts =>
    match p ts with
    | .ok (a, rest) => f a rest
    | .error rest => .error rest

def fail {α : Type} : Reader α :=
  fun ts => .error ts

/-- The number of tokens that are left, with the end of the text. -/
def remaining : Reader Nat :=
  fun ts => .ok (ts.length + 1, ts)

/-- Does the text continue with the punctuation character? -/
def isNext (c : Char) : Reader Bool :=
  fun ts => .ok (ts.head? == some (.punctuation c), ts)

/-- Does the text continue with the word? -/
def isWord (s : String) : Reader Bool :=
  fun ts => .ok (ts.head? == some (.name s), ts)

/-- Skip one token. -/
def skip : Reader Unit :=
  fun ts => .ok ((), ts.tail)

/-- Skip the punctuation character, which has to be there. -/
def punctuation (c : Char) : Reader Unit := do
  if ← isNext c then skip else fail

/-- Skip the punctuation character if it is there. -/
def optionalPunctuation (c : Char) : Reader Unit := do
  if ← isNext c then skip

def name : Reader String
  | .name s :: r => .ok (s, r)
  | ts => .error ts

/-- Read a name that is one of some words. -/
def wordOf (words : List String) : Reader String
  | .name s :: r => if words.contains s then .ok (s, r) else .error (.name s :: r)
  | ts => .error ts

/-- Skip the description that there may be. -/
def description : Reader Unit
  | .string _ :: r => .ok ((), r)
  | .block _ :: r => .ok ((), r)
  | ts => .ok ((), ts)

/-- Read items up to the closing character, with a bound on their number. -/
def itemsUntil {α : Type} (close : Char) (item : Reader α) : Nat → Reader (List α)
  | 0 => fail
  | n + 1 => do
    if ← isNext close then
      skip
      return []
    else
      let a ← item
      return a :: (← itemsUntil close item n)

/-- Read items between two characters. -/
def enclosed {α : Type} (opening close : Char) (item : Reader α) : Reader (List α) := do
  punctuation opening
  itemsUntil close item (← remaining)

/-- Read at least one item between two characters. -/
def enclosedSome {α : Type} (opening close : Char) (item : Reader α) : Reader (List α) := do
  punctuation opening
  let a ← item
  return a :: (← itemsUntil close item (← remaining))

/-- Read items between two characters, if the opening one is there, and then at least one. -/
def optionalSome {α : Type} (opening close : Char) (item : Reader α) : Reader (List α) := do
  if ← isNext opening then enclosedSome opening close item else return []

/-- Read further names behind separators, with a bound on their number. -/
def moreNames (separator : Char) (item : Reader String) : Nat → Reader (List String)
  | 0 => fail
  | n + 1 => do
    if ← isNext separator then
      skip
      let a ← item
      return a :: (← moreNames separator item n)
    else return []

/-- Read names with a separator between any two, and possibly before the first. -/
def separated (separator : Char) (item : Reader String) : Reader (List String) := do
  optionalPunctuation separator
  let a ← item
  return a :: (← moreNames separator item (← remaining))

/-- Read the mark that excludes null, if it is there. -/
def mark (t : TypeRef) : Reader TypeRef := do
  if ← isNext '!' then
    skip
    return .nonNull t
  else return t

/-- Read a type, with a bound on its nesting. -/
def typeWithin : Nat → Reader TypeRef
  | 0 => fail
  | n + 1 => do
    if ← isNext '[' then
      skip
      let item ← typeWithin n
      punctuation ']'
      mark (.list item)
    else
      mark (.named (← name))

def typeRef : Reader TypeRef := do
  typeWithin (← remaining)

/-- Skip a value that is a single token, if there is one. -/
def scalarValue : Reader Bool
  | .integer _ :: r => .ok (true, r)
  | .float _ :: r => .ok (true, r)
  | .string _ :: r => .ok (true, r)
  | .block _ :: r => .ok (true, r)
  | .name _ :: r => .ok (true, r)
  | ts => .ok (false, ts)

/-- Skip a name, a colon and what `value` skips. -/
def namedValue (value : Reader Unit) : Reader Unit := do
  let _ ← name
  punctuation ':'
  value

/-- Skip a constant value, with a bound on its nesting. -/
def valueWithin : Nat → Reader Unit
  | 0 => fail
  | n + 1 => do
    if ← scalarValue then return ()
    else if ← isNext '[' then
      let _ ← enclosed '[' ']' (valueWithin n)
    else
      let _ ← enclosed '\x7b' '\x7d' (namedValue (valueWithin n))

def value : Reader Unit := do
  valueWithin (← remaining)

/-- Skip directives, with a bound on their number. -/
def directivesWithin : Nat → Reader Unit
  | 0 => fail
  | n + 1 => do
    if ← isNext '@' then
      skip
      let _ ← name
      if ← isNext '(' then
        let _ ← enclosed '(' ')' (namedValue value)
      directivesWithin n

def directives : Reader Unit := do
  directivesWithin (← remaining)

/-- Skip the default value that there may be. -/
def defaultValue : Reader Unit := do
  if ← isNext '=' then
    skip
    value

/-- Read an argument of a field or a field of an input object. -/
def inputDefinition : Reader InputDefinition := do
  description
  let name ← name
  punctuation ':'
  let type ← typeRef
  defaultValue
  directives
  return { name, type }

def fieldDefinition : Reader FieldDefinition := do
  description
  let name ← name
  let arguments ← optionalSome '(' ')' inputDefinition
  punctuation ':'
  let type ← typeRef
  directives
  return { name, arguments, type }

/-- Read a name that is not a constant of another kind. -/
def enumName : Reader String
  | .name s :: r =>
    if ["true", "false", "null"].contains s then .error (.name s :: r) else .ok (s, r)
  | ts => .error ts

def enumValue : Reader String := do
  description
  let s ← enumName
  directives
  return s

/-- Skip the interfaces that a type implements, if there are any. -/
def interfaces : Reader Unit := do
  if ← isWord "implements" then
    skip
    let _ ← separated '&' name

/-- Read the rest of a type with fields. -/
def withFields (make : String → List FieldDefinition → TypeDefinition) :
    Reader TypeDefinition := do
  let s ← name
  interfaces
  directives
  return make s (← optionalSome '\x7b' '\x7d' fieldDefinition)

/-- Skip a root of the schema. -/
def root : Reader Unit := do
  let _ ← wordOf ["query", "mutation", "subscription"]
  punctuation ':'
  let _ ← name

/-- Skip the roots of a schema, which an extension need not have. -/
def roots (isExtension : Bool) : Reader Unit := do
  if isExtension && !(← isNext '\x7b') then return ()
  else
    let _ ← enclosed '\x7b' '\x7d' root

def schema (isExtension : Bool) : Reader TypeDefinition := do
  directives
  roots isExtension
  return .schema

def scalar : Reader TypeDefinition := do
  let s ← name
  directives
  return .scalar s

def union : Reader TypeDefinition := do
  let s ← name
  directives
  if ← isNext '=' then
    skip
    return .union s (← separated '|' name)
  else return .union s []

def enum : Reader TypeDefinition := do
  let s ← name
  directives
  return .enum s (← optionalSome '\x7b' '\x7d' enumValue)

def input : Reader TypeDefinition := do
  let s ← name
  directives
  return .input s (← optionalSome '\x7b' '\x7d' inputDefinition)

/-- Read the definition of a type or of the schema. -/
def typeDefinition (isExtension : Bool) : Reader TypeDefinition
  | .name "schema" :: r => schema isExtension r
  | .name "scalar" :: r => scalar r
  | .name "type" :: r => withFields .object r
  | .name "interface" :: r => withFields .interface r
  | .name "union" :: r => union r
  | .name "enum" :: r => enum r
  | .name "input" :: r => input r
  | ts => .error ts

/-- Where directives may stand. -/
def locations : List String := [
  "QUERY", "MUTATION", "SUBSCRIPTION", "FIELD", "FRAGMENT_DEFINITION", "FRAGMENT_SPREAD",
  "INLINE_FRAGMENT", "VARIABLE_DEFINITION", "SCHEMA", "SCALAR", "OBJECT", "FIELD_DEFINITION",
  "ARGUMENT_DEFINITION", "INTERFACE", "UNION", "ENUM", "ENUM_VALUE", "INPUT_OBJECT",
  "INPUT_FIELD_DEFINITION"]

/-- Read the rest of the definition of a directive. -/
def directiveDefinition : Reader Definition := do
  punctuation '@'
  let s ← name
  let _ ← optionalSome '(' ')' inputDefinition
  if ← isWord "repeatable" then skip
  let _ ← wordOf ["on"]
  let _ ← separated '|' (wordOf locations)
  return .directive s

/-- Read a definition or an extension from behind its description. -/
def undescribed : Reader Definition := do
  if ← isWord "extend" then
    skip
    return .extension (← typeDefinition true)
  else if ← isWord "directive" then
    skip
    directiveDefinition
  else return .plain (← typeDefinition false)

/-- Read a definition or an extension. -/
def definition : Reader Definition := do
  description
  undescribed

/-- Read definitions up to the end of the text, with a bound on their number. -/
def definitions : Nat → List Token → Except (List Token) Document
  | _, [] => .ok []
  | 0, ts => .error ts
  | n + 1, ts =>
    match definition ts with
    | .ok (d, rest) => (definitions n rest).map (d :: ·)
    | .error rest => .error rest

end Reader

/-- What it means that reading fails at some tokens. -/
def Failure.at : List Token → Failure
  | .unreadable :: _ => .unreadable
  | _ => .malformed

/-- Read a document from its tokens; it has at least one definition. -/
def Document.ofTokens (ts : List Token) : Except Failure Document :=
  if ts.isEmpty then .error .malformed
  else (Reader.definitions ts.length ts).mapError Failure.at

/-- Read a document. -/
def Document.read (cs : List Char) : Except Failure Document :=
  Document.ofTokens (Token.ofText cs)

end ApiGraph.GraphQL.Sdl
