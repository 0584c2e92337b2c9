import ApiGraph.GraphQL.Schema

/-!
# Schemas as text

The schema definition language lists the types of a schema, sorted by name, each followed by an
empty line; types whose name begins with two underscores are left out.  Fields are indented by one
tab.  A description stands before what it describes, as a block string on lines of its own, with
the same indentation.  If one of the arguments of a field has a description, each argument is
indented by two tabs.

After the types come the two built-in directives and the roots of the schema.
-/

namespace ApiGraph.GraphQL.Sdl

/-- Block strings end at the first three quotes without a backslash before them, so three quotes
in a description get one. -/
def escapeQuotes : List Char → List Char
  | '"' :: '"' :: '"' :: r => '\\' :: '"' :: '"' :: '"' :: escapeQuotes r
  | c :: r => c :: escapeQuotes r
  | [] => []

/-- Tabs at the start of a line. -/
def indentation (level : Nat) : List Char :=
  List.replicate level '\t'

/-- The text with an indentation after every line feed. -/
def indentLines (level : Nat) (cs : List Char) : List Char :=
  cs.flatMap fun c => if c == '\n' then '\n' :: indentation level else [c]

/-- The delimiter of block strings. -/
def blockQuotes : List Char := ['"', '"', '"']

/-- A description as a block string on its own lines. -/
def describe (level : Nat) : Option String → List Char
  | none => []
  | some text =>
    let i := indentation level
    i ++ blockQuotes ++ '\n' :: i ++ indentLines level (escapeQuotes text.toList) ++
      '\n' :: i ++ blockQuotes ++ ['\n']

/-- A name with its type. -/
def printTyped (name : String) (type : TypeRef) : List Char :=
  name.toList ++ ':' :: ' ' :: type.text

/-- Arguments behind one another, the first one possibly after others. -/
def printInline (isFirst : Bool) : List InputValue → List Char
  | [] => []
  | a :: r =>
    (if isFirst then [] else [',', ' ']) ++ printTyped a.name a.type ++ printInline false r

/-- Arguments of which some have descriptions. -/
def printSpread (isFirst : Bool) : List InputValue → List Char
  | [] => []
  | a :: r =>
    (if isFirst then [] else [',']) ++
      (if a.description.isSome then '\n' :: describe 2 a.description else []) ++
      indentation 2 ++ printTyped a.name a.type ++ printSpread false r

/-- The arguments of a field in parentheses, nothing if there are none. -/
def printArguments (as : List InputValue) : List Char :=
  if as.isEmpty then []
  else if as.any fun a => a.description.isSome then
    '(' :: printSpread true as ++ ['\n', '\t', ')']
  else '(' :: printInline true as ++ [')']

def printField (f : Field) : List Char :=
  describe 1 f.description ++ '\t' :: f.name.toList ++ printArguments f.arguments ++
    ':' :: ' ' :: f.type.text ++ ['\n']

def printInputField (f : InputValue) : List Char :=
  describe 1 f.description ++ '\t' :: printTyped f.name f.type ++ ['\n']

def printObject (o : ObjectType) : List Char :=
  describe 0 o.description ++ "type ".toList ++ o.name.toList ++ " \x7b\n".toList ++
    o.fields.flatMap printField ++ "\x7d\n".toList

def printInputObject (i : InputObject) : List Char :=
  describe 0 i.description ++ "input ".toList ++ i.name.toList ++ " \x7b\n".toList ++
    i.fields.flatMap printInputField ++ "\x7d\n".toList

/-- The scalar for values without a known shape. -/
def printJsonScalar : List Char :=
  describe 0 (some "Arbitrary JSON value") ++ "scalar ".toList ++ jsonName.toList ++ ['\n']

/-- Does the name keep a type out of the text? -/
def isHidden (name : String) : Bool :=
  "__".toList.isPrefixOf name.toList

/-- Put something named before the first thing whose name does not come before its name. -/
def insertByName {α : Type} (e : String × α) : List (String × α) → List (String × α)
  | [] => [e]
  | f :: r => if f.1 < e.1 then f :: insertByName e r else e :: f :: r

/-- Sort what has names by name. -/
def sortByName {α : Type} : List (String × α) → List (String × α)
  | [] => []
  | e :: r => insertByName e (sortByName r)

/-- The types with their texts, in order of registration. -/
def printedTypes (s : Schema) : List (String × List Char) :=
  s.objects.map (fun o => (o.name, printObject o)) ++
    s.inputs.map (fun i => (i.name, printInputObject i)) ++
    if s.usesJson then [(jsonName, printJsonScalar)] else []

/-- A built-in directive on parts of requests, with the effect that it has. -/
def printDirective (name effect : String) : List Char :=
  describe 0 (some effect) ++ "directive @".toList ++ name.toList ++
    "(if: Boolean!) on FIELD | FRAGMENT_SPREAD | INLINE_FRAGMENT\n".toList

/-- What the directive `include` has the executor do. -/
def includeEffect : String :=
  "Directs the executor to include this field or fragment only when the `if` argument is true."

/-- What the directive `skip` has the executor do. -/
def skipEffect : String :=
  "Directs the executor to skip this field or fragment when the `if` argument is true."

/-- The built-in directives. -/
def builtinDirectives : List Char :=
  printDirective "include" includeEffect ++ printDirective "skip" skipEffect

/-- The roots of the schema. -/
def printRoots (s : Schema) : List Char :=
  "schema \x7b\n\tquery: Query\n".toList ++
    (if s.hasMutation then "\tmutation: Mutation\n".toList else []) ++ "\x7d\n".toList

/-- The text of a schema. -/
def print (s : Schema) : List Char :=
  (sortByName ((printedTypes s).filter fun e => !isHidden e.1)).flatMap (fun e => e.2 ++ ['\n']) ++
    builtinDirectives ++ printRoots s

end ApiGraph.GraphQL.Sdl
