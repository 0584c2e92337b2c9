import ApiGraph.GraphQL.TypeRef

/-!
# Schemas

A schema consists of object types, input object types and possibly the scalar `JSON`.  The query
root is an object type named `Query`, the mutation root, if there is one, an object type named
`Mutation`.  Types, fields and arguments keep the order in which they were added.
-/

namespace ApiGraph.GraphQL

/-- The built-in scalars. -/
def builtinScalars : List String := ["Int", "Float", "String", "Boolean", "ID"]

/-- The name of the query root. -/
def queryName : String := "Query"

/-- The name of the mutation root. -/
def mutationName : String := "Mutation"

/-- The name of the scalar for values without a known shape. -/
def jsonName : String := "JSON"

/-- An argument of a field or a field of an input object. -/
structure InputValue where
  name : String
  type : TypeRef
  description : Option String := none
  deriving DecidableEq, Repr

/-- A field of an object type. -/
structure Field where
  name : String
  type : TypeRef
  arguments : List InputValue := []
  description : Option String := none
  deriving DecidableEq, Repr

/-- A type of answers. -/
structure ObjectType where
  name : String
  fields : List Field := []
  description : Option String := none
  deriving DecidableEq, Repr

/-- A type of arguments with members. -/
structure InputObject where
  name : String
  fields : List InputValue := []
  description : Option String := none
  deriving DecidableEq, Repr

/-- The types that a request can be made of. -/
structure Schema where
  /-- The root types and all other object types, in order of registration. -/
  objects : List ObjectType
  inputs : List InputObject
  usesJson : Bool
  hasMutation : Bool
  deriving DecidableEq, Repr

namespace Schema

/-- The names of all types, in order of registration. -/
def typeNames (s : Schema) : List String :=
  s.objects.map (·.name) ++ s.inputs.map (·.name) ++ if s.usesJson then [jsonName] else []

/-- The object type with the name. -/
def object? (s : Schema) (name : String) : Option ObjectType :=
  s.objects.find? fun o => o.name == name

/-- The input object type with the name. -/
def input? (s : Schema) (name : String) : Option InputObject :=
  s.inputs.find? fun i => i.name == name

end Schema

end ApiGraph.GraphQL
