import ApiGraph.Generation.Registry
import ApiGraph.OpenApi.Components

/-!
# Types for schemas

`typeOf` finds the GraphQL type of a schema and registers all types with members that it takes.
Scalars have their counterparts, an array is a list, and an object with properties is a type with
members.  What is none of these, or has no member that can be seen in the position, is `JSON`.

A component has one type in each position.  It is assigned as soon as the type is begun, so a
component that contains itself refers to the type under construction.  Schemas that are not
components get a type wherever they stand, so an array component that contains itself through
arrays and objects that are no components has no finite set of types.  `typeOf` counts down from a
bound on the nesting of all other schemas and reports such a document when the bound is exceeded.
-/

namespace ApiGraph.Generation

open ApiGraph.GraphQL hiding Schema
open ApiGraph.OpenApi (Components RefOr Schema SchemaData Problem)

/-- What the schemas of a document need: its components, and the position that is worked on. -/
structure Setting where
  components : Components
  position : Position

namespace Setting

/-- Follow a schema that may be a reference. -/
def resolve (s : Setting) (schema : RefOr Schema) : Except Fault (Option String × Schema) :=
  (s.components.resolve schema).mapError .problem

/-- Is the property left out of types in the position? -/
def hides (s : Setting) (data : SchemaData) : Bool :=
  match s.position with
  | .output => data.writeOnly
  | .input => data.readOnly

/-- The name that the types of a property are called after: in output position the name that its
owner got, in input position the one that the owner's schema is called by. -/
def ownerName (s : Setting) (base claimed : String) : String :=
  match s.position with
  | .output => claimed
  | .input => base

end Setting

/-- The hint for the name of a property's type. -/
def propertyHint (owner property : String) : String :=
  owner ++ typeName property

/-- Add a member; its name has to be new. -/
def addMember (members : List InputValue) (m : InputValue) : Except Fault (List InputValue) :=
  if members.any fun k => k.name == m.name then .error (.duplicateField m.name)
  else .ok (members ++ [m])

section Objects

/- How the type of a schema is found, given a hint for its name. -/
variable (typeOf : RefOr Schema → String → Registry → Except Fault (TypeRef × Registry))

/-- Make the members for properties and add them to those that are there. -/
def membersOf (s : Setting) (owner : String) (required : List String) :
    List InputValue → List (String × RefOr Schema) → Registry →
      Except Fault (List InputValue × Registry)
  | members, [], r => .ok (members, r)
  | members, (property, schema) :: rest, r => do
    let (_, resolved) ← s.resolve schema
    if s.hides resolved.data then membersOf s owner required members rest r
    else
      let (type, r) ← typeOf schema (propertyHint owner property) r
      let isRequired := required.contains property && !resolved.data.nullable
      let members ← addMember members
        { name := fieldName property
          type := type.excludeNullIf isRequired
          description := resolved.data.description }
      membersOf s owner required members rest r

/-- Claim a name and begin the type under it.  A component gets the type at once. -/
def beginObject (s : Setting) (component : Option String) (base : String) (r : Registry) :
    String × Registry :=
  let claimant := if component.isSome then Claimant.component else .inlined
  let (name, names) := r.names.claim claimant (s.position.preferred base)
  let r := { r with names }
  let r := match component with
    | some c => r.assign s.position c (.named name)
    | none => r
  (name, r.beginType s.position name)

/-- Finish the type that was begun, or give it up if it has no members. -/
def endObject (s : Setting) (component : Option String) (type : Composite) (r : Registry) :
    TypeRef × Registry :=
  if type.members.isEmpty then
    let r := (r.discard s.position type.name).useJson
    let r := match component with
      | some c => r.assign s.position c jsonType
      | none => r
    (jsonType, r)
  else (.named type.name, r.finish s.position type)

/-- Make the type of an object that has no type yet. -/
def newObject (s : Setting) (component : Option String) (base : String) (data : SchemaData)
    (properties : List (String × RefOr Schema)) (required : List String) (r : Registry) :
    Except Fault (TypeRef × Registry) := do
  let (name, r) := beginObject s component base r
  let (members, r) ← membersOf typeOf s (s.ownerName base name) required [] properties r
  return endObject s component ⟨name, members, data.description⟩ r

/-- The type of an object, which a component may have already. -/
def objectType (s : Setting) (component : Option String) (base : String) (data : SchemaData)
    (properties : List (String × RefOr Schema)) (required : List String) (r : Registry) :
    Except Fault (TypeRef × Registry) :=
  match component.bind (r.assigned? s.position) with
  | some type => .ok (type, r)
  | none => newObject typeOf s component base data properties required r

end Objects

/-- What the items of an array are called after the array. -/
def itemHint (name : String) : String :=
  name ++ "Item"

/-- The type of a schema.  Schemas that are not components are called after the hint.  The first
argument bounds the nesting of schemas. -/
def typeOf (s : Setting) :
    Nat → RefOr Schema → String → Registry → Except Fault (TypeRef × Registry)
  | 0, _, _, _ => .error .unbounded
  | bound + 1, schema, hint, r => do
    let (component, resolved) ← s.resolve schema
    let base := match component with
      | some c => typeName c
      | none => hint
    match resolved.kind with
    | .string => return (.named "String", r)
    | .integer => return (.named "Int", r)
    | .number => return (.named "Float", r)
    | .boolean => return (.named "Boolean", r)
    | .array none => .error (.problem .arrayWithoutItems)
    | .array (some items) =>
      let (item, r) ← typeOf s bound items (itemHint base) r
      let (_, resolvedItem) ← s.resolve items
      return (.list (item.excludeNullIf !resolvedItem.data.nullable), r)
    | .object properties required =>
      if properties.isEmpty then return (jsonType, r.useJson)
      else objectType (typeOf s bound) s component base resolved.data properties required r
    | .any => return (jsonType, r.useJson)

/-- How many schemas and references the components of a document consist of. -/
def componentsSize (c : Components) : Nat :=
  Schema.sizeOfProperties c.schemas

/-- A bound on the nesting of schemas below a schema.  Between two components that are objects,
which are entered once each, no schema can be met twice. -/
def nestingBound (c : Components) (schema : RefOr Schema) : Nat :=
  (c.schemas.length + 1) * (componentsSize c + Schema.sizeOfRef schema + 1)

end ApiGraph.Generation
