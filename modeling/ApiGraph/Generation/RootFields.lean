import ApiGraph.Generation.Types
import ApiGraph.OpenApi.Endpoint

/-!
# Fields for endpoints

An endpoint becomes a field: its answer gives the type, its parameters and its body the arguments.
Parameters of different locations may have the same name; the later one is then called after its
location too.  No two arguments of a field have the same name.
-/

namespace ApiGraph.Generation

open ApiGraph.GraphQL hiding Schema
open ApiGraph.OpenApi (Components RefOr Schema Endpoint EndpointParameter EndpointBody)

/-- The type of a schema in a position. -/
def schemaType (c : Components) (position : Position) (schema : RefOr Schema) (hint : String)
    (r : Registry) : Except Fault (TypeRef × Registry) :=
  typeOf ⟨c, position⟩ (nestingBound c schema) schema hint r

/-- The type of a schema in a position; without a schema it is a string. -/
def optionalType (c : Components) (position : Position) (schema : Option (RefOr Schema))
    (hint : String) (r : Registry) : Except Fault (TypeRef × Registry) :=
  match schema with
  | some s => schemaType c position s hint r
  | none => .ok (.named "String", r)

/-- Add an argument to a field; its name has to be new. -/
def addArgument (field : String) (arguments : List InputValue) (a : InputValue) :
    Except Fault (List InputValue) :=
  if arguments.any fun k => k.name == a.name then
    .error (.problem (.duplicateArgument field a.name))
  else .ok (arguments ++ [a])

/-- The name of the argument for a parameter, beside the arguments that are there. -/
def argumentName (arguments : List InputValue) (p : EndpointParameter) : String :=
  if arguments.any fun k => k.name == fieldName p.name then
    fieldName (p.name ++ " " ++ p.location.name)
  else fieldName p.name

/-- Add the arguments for parameters to those that are there. -/
def parameterArguments (c : Components) (field base : String) :
    List InputValue → List EndpointParameter → Registry → Except Fault (List InputValue × Registry)
  | arguments, [], r => .ok (arguments, r)
  | arguments, p :: rest, r => do
    let (type, r) ← optionalType c .input p.schema (propertyHint base p.name) r
    let arguments ← addArgument field arguments
      { name := argumentName arguments p
        type := type.excludeNullIf p.required
        description := p.description }
    parameterArguments c field base arguments rest r

/-- What the argument for a body is called after, if the body is no component: the component of
its schema, or the field. -/
def bodyBase (c : Components) (base : String) : RefOr Schema → Except Fault String
  | .reference target => ((c.schema target).map fun found => typeName found.1).mapError .problem
  | .item _ => .ok base

/-- Add the argument for a body to those that are there. -/
def bodyArgument (c : Components) (field base : String) (arguments : List InputValue) :
    Option EndpointBody → Registry → Except Fault (List InputValue × Registry)
  | none, r => .ok (arguments, r)
  | some b, r => do
    let hint ← bodyBase c base b.schema
    let (type, r) ← schemaType c .input b.schema hint r
    let arguments ← addArgument field arguments
      { name := fieldName (b.component.getD hint ++ " input")
        type := type.excludeNullIf b.required }
    return (arguments, r)

/-- The field for an endpoint. -/
def endpointField (c : Components) (e : Endpoint) (r : Registry) :
    Except Fault (Field × Registry) := do
  let name := e.fieldName
  let base := typeName name
  let (type, r) ← optionalType c .output e.response base r
  let (arguments, r) ← parameterArguments c name base [] e.parameters r
  let (arguments, r) ← bodyArgument c name base arguments e.body r
  return ({ name, type, arguments, description := e.description }, r)

end ApiGraph.Generation
