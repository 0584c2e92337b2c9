import ApiGraph.OpenApi.Document

/-!
# Reading OpenAPI documents

`Document.read?` takes a JSON value apart that has the shape of a document, and refuses all others.
As the shape is known by then, the readers of the parts need not fail: they read what the shape
promises, and where it promises nothing they take an empty default.

A schema is of the kind that its `type` names only if all of its keywords belong to that kind and
suit it; else it is of any kind.
-/

namespace ApiGraph.OpenApi

namespace Reader

/-- The member under the key, unless it is null. -/
def member? (j : Json) (key : String) : Option Json :=
  (j.member? key).filter fun v => !v.isNull

def text? (j : Json) (key : String) : Option String :=
  (j.member? key).bind Json.string?

def flag (j : Json) (key : String) : Bool :=
  match j.member? key with
  | some (.bool b) => b
  | _ => false

/-- The members of the object under the key; none if there is none. -/
def membersAt (j : Json) (key : String) : List (String × Json) :=
  match j.member? key with
  | some v => v.members
  | none => []

/-- The items of the array under the key; none if there is none. -/
def itemsAt (j : Json) (key : String) : List Json :=
  match j.member? key with
  | some v => v.items
  | none => []

def refOr {α : Type} (item : Json → α) (j : Json) : RefOr α :=
  match text? j "$ref" with
  | some target => .reference target
  | none => .item (item j)

/-- The keywords of schemas that belong to some kinds only. -/
def keywords : List String := [
  "pattern", "multipleOf", "exclusiveMinimum", "exclusiveMaximum", "minimum", "maximum",
  "properties", "required", "additionalProperties", "minProperties", "maxProperties",
  "items", "minItems", "maxItems", "uniqueItems", "enum", "format", "minLength", "maxLength",
  "oneOf", "allOf", "anyOf", "not"]

/-- Does the schema have no keywords but these? -/
def hasOnly (j : Json) (allowed : List String) : Bool :=
  keywords.all fun k => (member? j k).isNone || allowed.contains k

/-- Are all members of the enumeration of the kind, or null? -/
def enumFits (j : Json) (isOfKind : Json → Bool) : Bool :=
  (itemsAt j "enum").all fun v => v.isNull || isOfKind v

def isString : Json → Bool
  | .string _ => true
  | _ => false

def isNumber : Json → Bool
  | .number _ => true
  | _ => false

def isBool : Json → Bool
  | .bool _ => true
  | _ => false

/-- Is the value an integer of the signed 64-bit range? -/
def isInteger : Json → Bool
  | .number (.integer n) => Decimal.inSigned 63 n
  | _ => false

/-- The keywords of numbers. -/
def numeric : List String :=
  ["multipleOf", "exclusiveMinimum", "exclusiveMaximum", "minimum", "maximum", "enum", "format"]

/-- The kind of scalar values that the schema describes, if it is the named one. -/
def scalarKind? (j : Json) (type : String) : Option (SchemaKind Schema) :=
  if type == "string" && hasOnly j ["pattern", "enum", "format", "minLength", "maxLength"] &&
      enumFits j isString then some .string
  else if type == "number" && hasOnly j numeric && enumFits j isNumber then some .number
  else if type == "integer" && hasOnly j numeric && enumFits j isInteger &&
      ["multipleOf", "minimum", "maximum"].all fun k => (member? j k).all isInteger then
    some .integer
  else if type == "boolean" && hasOnly j ["enum"] && enumFits j isBool then some .boolean
  else none

/-- The keywords of objects. -/
def ofObjects : List String :=
  ["properties", "required", "additionalProperties", "minProperties", "maxProperties"]

/-- The keywords of arrays. -/
def ofArrays : List String := ["items", "minItems", "maxItems", "uniqueItems"]

def schemaData (j : Json) : SchemaData :=
  { description := text? j "description"
    nullable := flag j "nullable"
    readOnly := flag j "readOnly"
    writeOnly := flag j "writeOnly" }

/-- Read a schema.  A schema inside a schema is in a member of an object, so the first argument
need only exceed the depth of the value. -/
def schema : Nat → Json → Schema
  | 0, j => .mk (schemaData j) .any
  | n + 1, j =>
    let kind : SchemaKind Schema :=
      match text? j "type" with
      | none => .any
      | some type =>
        match scalarKind? j type with
        | some kind => kind
        | none =>
          if type == "object" && hasOnly j ofObjects then
            .object ((membersAt j "properties").map fun (k, v) => (k, refOr (schema n) v))
              ((itemsAt j "required").filterMap Json.string?)
          else if type == "array" && hasOnly j ofArrays then
            .array ((member? j "items").map (refOr (schema n)))
          else .any
    .mk (schemaData j) kind

def anySchema (j : Json) : RefOr Schema :=
  refOr (fun j => schema (j.depth + 1) j) j

def content (j : Json) : Content :=
  (membersAt j "content").map fun (k, v) => (k, (member? v "schema").map anySchema)

def location (j : Json) : Location :=
  match (j.member? "in").bind (Shape.caseOf? Model.parameterLocations) with
  | some "query" => .query
  | some "header" => .header
  | some "path" => .path
  | _ => .cookie

/-- The first of schema and content counts. -/
def parameterFormat (j : Json) : ParameterFormat :=
  match j.members.find? fun m => m.1 == "schema" || m.1 == "content" with
  | some ("schema", v) => .schema (anySchema v)
  | _ => .content (content j)

def parameter (j : Json) : Parameter :=
  { name := (text? j "name").getD ""
    location := location j
    required := flag j "required"
    description := text? j "description"
    format := parameterFormat j }

def requestBody (j : Json) : RequestBody :=
  { content := content j, required := flag j "required" }

def response (j : Json) : Response :=
  { content := content j }

/-- Of responses with the same status the last counts, at the place of the first. -/
def putResponse (rs : List (Status × RefOr Response)) (status : Status) (r : RefOr Response) :
    List (Status × RefOr Response) :=
  match rs with
  | [] => [(status, r)]
  | (s, q) :: rest => if s == status then (s, r) :: rest else (s, q) :: putResponse rest status r

def responses (j : Json) : List (Status × RefOr Response) :=
  (membersAt j "responses").foldl (fun rs (key, v) =>
    match Status.ofKey? key with
    | some status => putResponse rs status (refOr response v)
    | none => rs) []

def operation (j : Json) : Operation :=
  { operationId := text? j "operationId"
    summary := text? j "summary"
    description := text? j "description"
    parameters := (itemsAt j "parameters").map (refOr parameter)
    requestBody := (member? j "requestBody").map (refOr requestBody)
    responses := responses j }

def pathItem (j : Json) : PathItem :=
  { operations := Method.all.filterMap fun m =>
      (member? j m.key).map fun v => (m, operation v)
    parameters := (itemsAt j "parameters").map (refOr parameter) }

/-- The components of one kind. -/
def componentsAt {α : Type} (item : Json → α) (j : Json) (key : String) : Dictionary (RefOr α) :=
  (membersAt j key).map fun (k, v) => (k, refOr item v)

def components (j : Json) : Components :=
  { schemas := (membersAt j "schemas").map fun (k, v) => (k, anySchema v)
    parameters := componentsAt parameter j "parameters"
    requestBodies := componentsAt requestBody j "requestBodies"
    responses := componentsAt response j "responses" }

def document (j : Json) : Document :=
  { components := ((member? j "components").map components).getD {}
    paths := ((membersAt j "paths").filter fun m => isPathKey m.1).map fun (k, v) =>
      (k, refOr pathItem v) }

end Reader

/-- Read a document from a JSON value. -/
def Document.read? (j : Json) : Option Document :=
  if Model.fits j then some (Reader.document j) else none

end ApiGraph.OpenApi
