import ApiGraph.GraphQL.TypeRef

/-!
# Documents of the schema definition language

A document is a list of definitions, and of extensions of definitions that stand elsewhere.  Only
names and types are kept; descriptions, directives and default values are not.

Nothing in a document is unique: types may be defined several times, and fields and arguments may
repeat.
-/

namespace ApiGraph.GraphQL.Sdl

/-- An argument of a field or a field of an input object. -/
structure InputDefinition where
  name : String
  type : TypeRef
  deriving DecidableEq, Repr

/-- A field of an object type or an interface. -/
structure FieldDefinition where
  name : String
  arguments : List InputDefinition
  type : TypeRef
  deriving DecidableEq, Repr

/-- What a definition or an extension says, by its keyword. -/
inductive TypeDefinition where
  | schema
  | scalar (name : String)
  | object (name : String) (fields : List FieldDefinition)
  | interface (name : String) (fields : List FieldDefinition)
  | union (name : String) (members : List String)
  | enum (name : String) (values : List String)
  | input (name : String) (fields : List InputDefinition)
  deriving DecidableEq, Repr

/-- One entry of a document. -/
inductive Definition where
  | plain (d : TypeDefinition)
  | extension (d : TypeDefinition)
  | directive (name : String)
  deriving DecidableEq, Repr

/-- What a text of the language consists of, in order. -/
abbrev Document := List Definition

/-- The argument names of a field, in order. -/
def FieldDefinition.argumentNames (f : FieldDefinition) : List String :=
  f.arguments.map (·.name)

end ApiGraph.GraphQL.Sdl
