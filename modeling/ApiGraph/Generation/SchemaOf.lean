import ApiGraph.Generation.RootFields
import ApiGraph.Json.Printer
import ApiGraph.OpenApi.Document.Reader

/-!
# The schema of a document

The endpoints of a document become the fields of two root types: those that only read become the
fields of `Query`, all others those of `Mutation`.  A document without read operations gets a
placeholder, as a schema has to have a query field.

`schemaOf` takes a JSON value to the schema: the version of OpenAPI comes first, then the shape of
the document, its endpoints, the types and at last the validity of the whole.
-/

namespace ApiGraph.Generation

open ApiGraph.GraphQL
open ApiGraph.OpenApi (Components Document Endpoint Problem)

/-- The fields of the two root types. -/
structure Roots where
  query : List Field := []
  mutation : List Field := []
  deriving DecidableEq, Repr

/-- Add a field to those of a type; its name has to be new. -/
def addField (fields : List Field) (f : Field) : Except Fault (List Field) :=
  if fields.any fun k => k.name == f.name then .error (.duplicateField f.name)
  else .ok (fields ++ [f])

/-- Add the field of an endpoint to its root type. -/
def Roots.add (roots : Roots) (e : Endpoint) (f : Field) : Except Fault Roots :=
  if e.isQuery then (addField roots.query f).map fun query => { roots with query }
  else (addField roots.mutation f).map fun mutation => { roots with mutation }

/-- Make the fields of endpoints, one after the other. -/
def rootFields (c : Components) : Roots → List Endpoint → Registry → Except Fault (Roots × Registry)
  | roots, [], r => .ok (roots, r)
  | roots, e :: rest, r => do
    let (field, r) ← endpointField c e r
    let roots ← roots.add e field
    rootFields c roots rest r

/-- The query field of a document without read operations. -/
def placeholder : Field :=
  { name := "placeholder", type := .named "String"
    description := some "Placeholder field, the API has no read operations" }

/-- The types with members that are finished, in order. -/
def finished (types : Dictionary (Option Composite)) : List Composite :=
  types.filterMap (·.2)

/-- The type as an object type, whose fields take no arguments. -/
def Composite.toObject (t : Composite) : ObjectType :=
  { name := t.name
    fields := t.members.map fun m =>
      { name := m.name, type := m.type, description := m.description }
    description := t.description }

/-- The type as an input object type. -/
def Composite.toInput (t : Composite) : InputObject :=
  { name := t.name, fields := t.members, description := t.description }

/-- Put the roots and the registered types together. -/
def assemble (roots : Roots) (r : Registry) : Schema :=
  let query := if roots.query.isEmpty then [placeholder] else roots.query
  let hasMutation := !roots.mutation.isEmpty
  { objects := { name := queryName, fields := query } ::
      (if hasMutation then [{ name := mutationName, fields := roots.mutation }] else []) ++
      (finished r.objects).map (·.toObject)
    inputs := (finished r.inputs).map (·.toInput)
    usesJson := r.usesJson
    hasMutation }

/-- The schema of endpoints, valid or not. -/
def assembled (c : Components) (endpoints : List Endpoint) : Except Fault Schema := do
  let (roots, r) ← rootFields c {} endpoints (.start c.schemas.keys)
  return assemble roots r

/-- The schema of endpoints. -/
def schemaOfEndpoints (c : Components) (endpoints : List Endpoint) : Except Fault Schema := do
  let schema ← assembled c endpoints
  match schema.violation? with
  | some v => .error (.problem (.invalidSchema v))
  | none => return schema

/-- The schema of a document. -/
def schemaOfDocument (d : Document) : Except Fault Schema := do
  let endpoints ← d.endpoints.mapError .problem
  schemaOfEndpoints d.components endpoints

/-- A version as it is written; what is no string is written as JSON. -/
def versionText : Json → String
  | .string s => s
  | j => j.text

/-- The document that a JSON value is, if its version is one of OpenAPI 3. -/
def documentOf (j : Json) : Except Problem Document :=
  match j.member? "swagger" with
  | some version => .error (.unsupportedVersion (versionText version))
  | none =>
    match j.member? "openapi" with
    | none => .error .missingVersion
    | some version =>
      if "3.".toList.isPrefixOf (versionText version).toList then
        match Document.read? j with
        | some d => .ok d
        | none => .error .notJson
      else .error (.unsupportedVersion (versionText version))

/-- The schema of the document that a JSON value is. -/
def schemaOf (j : Json) : Except Fault Schema := do
  let d ← (documentOf j).mapError .problem
  schemaOfDocument d

end ApiGraph.Generation
