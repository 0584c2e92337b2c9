import ApiGraph.Dictionary

/-!
# Schemas of an OpenAPI document

A schema describes JSON values.  Of its keywords only those are kept that tell the kind of the
values: scalars, arrays with the schema of their items, and objects with the schemas of their
properties.  Everything else is of any kind.
-/

namespace ApiGraph.OpenApi

/-- A reference to a component of the document, or the thing itself. -/
inductive RefOr (α : Type) where
  | reference (target : String)
  | item (value : α)
  deriving DecidableEq, Repr

/-- What a schema says apart from the kind of its values. -/
structure SchemaData where
  description : Option String := none
  nullable : Bool := false
  readOnly : Bool := false
  writeOnly : Bool := false
  deriving DecidableEq, Repr

/-- Of what kind the values are; the schemas inside are of type `σ`. -/
inductive SchemaKind (σ : Type) where
  | string
  | integer
  | number
  | boolean
  | array (items : Option (RefOr σ))
  | object (properties : List (String × RefOr σ)) (required : List String)
  | any

/-- A description of JSON values. -/
inductive Schema where
  | mk (data : SchemaData) (kind : SchemaKind Schema)

namespace Schema

def data : Schema → SchemaData
  | .mk data _ => data

def kind : Schema → SchemaKind Schema
  | .mk _ kind => kind

mutual

/-- How many schemas and references the schema consists of, with itself. -/
def size : Schema → Nat
  | .mk _ kind => 1 + sizeOfKind kind

def sizeOfKind : SchemaKind Schema → Nat
  | .array (some items) => sizeOfRef items
  | .object properties _ => sizeOfProperties properties
  | _ => 0

def sizeOfRef : RefOr Schema → Nat
  | .reference _ => 1
  | .item s => size s

def sizeOfProperties : List (String × RefOr Schema) → Nat
  | [] => 0
  | (_, s) :: r => sizeOfRef s + sizeOfProperties r

end

end Schema

end ApiGraph.OpenApi
