import ApiGraph.OpenApi.Model
import ApiGraph.OpenApi.Schema

/-!
# OpenAPI documents

The parts of a document that describe its operations: the components that can be referred to, and
for every path an item with the operations on it and with parameters for all of them.
-/

namespace ApiGraph.OpenApi

/-- The methods of operations, in the order in which a path item lists them. -/
inductive Method where
  | get
  | put
  | post
  | delete
  | options
  | head
  | patch
  | trace
  deriving DecidableEq, Repr

namespace Method

/-- All methods, in order. -/
def all : List Method := [get, put, post, delete, options, head, patch, trace]

/-- The key of a path item for operations with the method. -/
def key : Method → String
  | .get => "get"
  | .put => "put"
  | .post => "post"
  | .delete => "delete"
  | .options => "options"
  | .head => "head"
  | .patch => "patch"
  | .trace => "trace"

end Method

/-- Content types, each with the schema of what it holds, if there is one. -/
abbrev Content := Dictionary (Option (RefOr Schema))

/-- Where a parameter is. -/
inductive Location where
  | query
  | header
  | path
  | cookie
  deriving DecidableEq, Repr

/-- What the value of a parameter looks like. -/
inductive ParameterFormat where
  | schema (schema : RefOr Schema)
  | content (content : Content)

/-- A parameter of an operation. -/
structure Parameter where
  name : String
  location : Location
  required : Bool
  description : Option String
  format : ParameterFormat

/-- What is sent along with a request. -/
structure RequestBody where
  content : Content
  required : Bool

/-- What comes back. -/
structure Response where
  content : Content

/-- What can be asked for under one path with one method. -/
structure Operation where
  operationId : Option String := none
  summary : Option String := none
  description : Option String := none
  parameters : List (RefOr Parameter) := []
  requestBody : Option (RefOr RequestBody) := none
  responses : List (Status × RefOr Response) := []

/-- The operations under one path, and the parameters that they share. -/
structure PathItem where
  operations : List (Method × Operation)
  parameters : List (RefOr Parameter) := []

/-- What references can point at. -/
structure Components where
  schemas : Dictionary (RefOr Schema) := []
  parameters : Dictionary (RefOr Parameter) := []
  requestBodies : Dictionary (RefOr RequestBody) := []
  responses : Dictionary (RefOr Response) := []

/-- What a document says about its operations. -/
structure Document where
  components : Components := {}
  paths : List (String × RefOr PathItem) := []

end ApiGraph.OpenApi
