import ApiGraph.Dictionary
import ApiGraph.Generation.NamePool
import ApiGraph.OpenApi.Problem

/-!
# The types made so far

The registry holds the types that were made from schemas, for each position in the order in which
they were begun, and which type each component got.  A type that has been begun and is not finished
has no members yet; it can be referred to all the same, so components may contain themselves.
-/

namespace ApiGraph.Generation

open ApiGraph.GraphQL

/-- Why no schema is made. -/
inductive Fault where
  /-- The document is at fault. -/
  | problem (p : OpenApi.Problem)
  /-- Two fields of one type would get the same name. -/
  | duplicateField (name : String)
  /-- The types of the document do not come to an end. -/
  | unbounded
  deriving DecidableEq, Repr

/-- A type with members, for either position. -/
structure Composite where
  name : String
  members : List InputValue
  description : Option String
  deriving DecidableEq, Repr

/-- What has been made from schemas so far. -/
structure Registry where
  names : NamePool
  /-- The type of each component that was met, by position. -/
  assigned : List ((Position × String) × TypeRef) := []
  objects : Dictionary (Option Composite) := []
  inputs : Dictionary (Option Composite) := []
  usesJson : Bool := false
  deriving DecidableEq, Repr

namespace Registry

/-- The state before any type is made, for a document with the given schema components. -/
def start (components : List String) : Registry :=
  { names := .start components }

/-- The type of the component, if it has been met in the position. -/
def assigned? (r : Registry) (position : Position) (component : String) : Option TypeRef :=
  r.assigned.lookup (position, component)

/-- Let the component have the type; an earlier assignment counts no more. -/
def assign (r : Registry) (position : Position) (component : String) (type : TypeRef) : Registry :=
  { r with assigned := ((position, component), type) :: r.assigned }

/-- The types of a position. -/
def types (r : Registry) : Position → Dictionary (Option Composite)
  | .output => r.objects
  | .input => r.inputs

/-- Let these be the types of a position. -/
def setTypes (r : Registry) (position : Position) (types : Dictionary (Option Composite)) :
    Registry :=
  match position with
  | .output => { r with objects := types }
  | .input => { r with inputs := types }

/-- Begin a type. -/
def beginType (r : Registry) (position : Position) (name : String) : Registry :=
  r.setTypes position ((r.types position).put name none)

/-- Finish a type that was begun. -/
def finish (r : Registry) (position : Position) (type : Composite) : Registry :=
  r.setTypes position ((r.types position).put type.name (some type))

/-- Give up a type that was begun. -/
def discard (r : Registry) (position : Position) (name : String) : Registry :=
  r.setTypes position ((r.types position).erase name)

/-- Use the scalar for values without a known shape. -/
def useJson (r : Registry) : Registry :=
  { r with usesJson := true }

end Registry

/-- The type of values without a known shape. -/
def jsonType : TypeRef := .named jsonName

end ApiGraph.Generation
