import ApiGraph.GraphQL.Schema

/-!
# Valid schemas

A schema is valid if no type has the name of a built-in scalar, no field or argument has a name
that begins with two underscores, and no input object needs a value of itself: a field that
excludes null and is no list needs a value of its type.

`Schema.violation?` gives the first violation: names of types in order of registration, then the
object types in that order, then the input objects.
-/

namespace ApiGraph.GraphQL

/-- What is wrong with a schema. -/
inductive Violation where
  | typeExists (type : String)
  | reservedField (type field : String)
  | reservedArgument (type field argument : String)
  | selfReference (type : String)
  deriving DecidableEq, Repr

namespace Violation

/-- A text in quotes. -/
def quoted (s : String) : String := "\"" ++ s ++ "\""

def reservedSuffix : String :=
  " must not have a name which begins with the characters \"__\" (two underscores)"

/-- The wording. -/
def message : Violation → String
  | .typeExists t => "Type " ++ quoted t ++ " already exists"
  | .reservedField t f => "Field " ++ quoted (t ++ "." ++ f) ++ reservedSuffix
  | .reservedArgument t f a => "Argument " ++ quoted (t ++ "." ++ f ++ "." ++ a) ++ reservedSuffix
  | .selfReference t =>
    quoted t ++ " references itself either directly or through referenced Input Objects, at " ++
      "least one of the fields in the chain of references must be either a nullable or a List type."

end Violation

/-- Does the name begin with two underscores? -/
def isReserved (name : String) : Bool :=
  match name.toList with
  | '_' :: '_' :: _ => true
  | _ => false

/-- The input objects of which a value of the input object named `name` needs a value. -/
def Schema.requiredBy (s : Schema) (name : String) : List String :=
  match s.input? name with
  | some i => i.fields.filterMap fun f => f.type.required?
  | none => []

/-- Add to `found` everything that is required by its members, directly or in at most `steps`
further steps. -/
def Schema.requiredWithin (s : Schema) : Nat → List String → List String
  | 0, found => found
  | steps + 1, found =>
    let next := (found.flatMap s.requiredBy).filter fun n => !found.contains n
    if next.isEmpty then found else s.requiredWithin steps (found ++ next.eraseDups)

/-- Does a value of the input object need another value of it?  A chain of requirements need not
be longer than there are input objects. -/
def Schema.requiresItself (s : Schema) (name : String) : Bool :=
  (s.requiredWithin s.inputs.length (s.requiredBy name).eraseDups).contains name

namespace Violation

def ofFieldName? (type field : String) : Option Violation :=
  if isReserved field then some (.reservedField type field) else none

def ofArgumentName? (type field argument : String) : Option Violation :=
  if isReserved argument then some (.reservedArgument type field argument) else none

/-- The first violation in an object type. -/
def inObject? (o : ObjectType) : Option Violation :=
  o.fields.findSome? fun f =>
    (ofFieldName? o.name f.name).or
      (f.arguments.findSome? fun a => ofArgumentName? o.name f.name a.name)

/-- The first violation in an input object. -/
def inInput? (s : Schema) (i : InputObject) : Option Violation :=
  (i.fields.findSome? fun f => ofFieldName? i.name f.name).or
    (if s.requiresItself i.name then some (.selfReference i.name) else none)

def inTypeName? (name : String) : Option Violation :=
  if builtinScalars.contains name then some (.typeExists name) else none

end Violation

/-- The first violation in a schema. -/
def Schema.violation? (s : Schema) : Option Violation :=
  (s.typeNames.findSome? Violation.inTypeName?).or
    ((s.objects.findSome? Violation.inObject?).or (s.inputs.findSome? (Violation.inInput? s)))

end ApiGraph.GraphQL
