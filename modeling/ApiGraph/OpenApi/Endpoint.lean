import ApiGraph.GraphQL.Name
import ApiGraph.OpenApi.Components
import ApiGraph.Text.Blank

/-!
# Endpoints

An endpoint is an operation of a document with everything settled that its description leaves open:
which parameters it has, of its own and from its path, which schema its body has and which its
answer.

The answer is that of the first response with a status of success and a JSON schema.  Parameters of
the path are dropped where the operation has one of the same name, and cookies are no parameters.
-/

namespace ApiGraph.OpenApi

open ApiGraph.Text

/-- A parameter that becomes an argument. -/
structure EndpointParameter where
  name : String
  /-- Never `cookie`. -/
  location : Location
  schema : Option (RefOr Schema)
  required : Bool
  description : Option String

/-- A request body that becomes an argument. -/
structure EndpointBody where
  /-- The component that the body came from, if it was referred to. -/
  component : Option String
  schema : RefOr Schema
  required : Bool

/-- An operation on a path with all references to its parts followed. -/
structure Endpoint where
  path : String
  method : Method
  operationId : Option String := none
  description : Option String := none
  parameters : List EndpointParameter := []
  body : Option EndpointBody := none
  response : Option (RefOr Schema) := none

/-- Is it the content type of JSON, or of a format based on JSON?  Its parameters do not count. -/
def isJsonType (contentType : String) : Bool :=
  let essence := trim (contentType.toList.takeWhile (· != ';'))
  essence == "application/json".toList || "+json".toList.isSuffixOf essence

/-- The schema of the first JSON content type that has one. -/
def Content.jsonSchema? (c : Content) : Option (RefOr Schema) :=
  c.findSome? fun (contentType, schema) => if isJsonType contentType then schema else none

/-- The schema of form fields. -/
def Content.formSchema? (c : Content) : Option (RefOr Schema) :=
  (Dictionary.get? c "application/x-www-form-urlencoded").join

namespace Location

def name : Location → String
  | .query => "query"
  | .header => "header"
  | .path => "path"
  | .cookie => "cookie"

end Location

namespace Endpoint

/-- Is it a read operation? -/
def isQuery (e : Endpoint) : Bool :=
  e.method == .get

/-- A parameter as the endpoint has it, none for a cookie.  Path parameters are always required. -/
def parameter? (p : Parameter) : Option EndpointParameter :=
  if p.location == .cookie then none
  else some
    { name := p.name
      location := p.location
      schema := match p.format with
        | .schema s => some s
        | .content c => c.jsonSchema?
      required := p.required || p.location == .path
      description := p.description }

def resolveParameter (c : Components) : RefOr Parameter → Except Problem Parameter
  | .reference target => c.parameter target
  | .item p => .ok p

/-- Add the parameters of the operation itself. -/
def ownParameters (c : Components) : List (RefOr Parameter) →
    Except Problem (List EndpointParameter)
  | [] => .ok []
  | p :: r => do
    let p ← resolveParameter c p
    let r ← ownParameters c r
    return (parameter? p).toList ++ r

/-- Add the parameters of the path to those that are there, unless there is one of that name. -/
def inheritParameters (c : Components) (known : List EndpointParameter) :
    List (RefOr Parameter) → Except Problem (List EndpointParameter)
  | [] => .ok known
  | p :: r => do
    let p ← resolveParameter c p
    let added := if known.any fun k => k.name == p.name then [] else (parameter? p).toList
    inheritParameters c (known ++ added) r

def bodyOf (component : Option String) (b : RequestBody) : Option EndpointBody :=
  (b.content.jsonSchema?.or b.content.formSchema?).map fun schema =>
    { component, schema, required := b.required }

def resolveBody (c : Components) : Option (RefOr RequestBody) → Except Problem (Option EndpointBody)
  | none => .ok none
  | some (.item b) => .ok (bodyOf none b)
  | some (.reference target) => do
    let b ← c.requestBody target
    return bodyOf (componentName? "requestBodies" target) b

def resolveResponse (c : Components) : RefOr Response → Except Problem Response
  | .reference target => c.response target
  | .item r => .ok r

/-- The schema of the answer.  Responses behind the first suitable one are not looked at. -/
def firstAnswer (c : Components) : List (Status × RefOr Response) →
    Except Problem (Option (RefOr Schema))
  | [] => .ok none
  | (status, r) :: rest =>
    if status.isSuccess then do
      let found ← resolveResponse c r
      match found.content.jsonSchema? with
      | some s => return some s
      | none => firstAnswer c rest
    else firstAnswer c rest

/-- The endpoint of an operation on a path. -/
def ofOperation (c : Components) (path : String) (method : Method) (o : Operation)
    (inherited : List (RefOr Parameter)) : Except Problem Endpoint := do
  let body ← resolveBody c o.requestBody
  let response ← firstAnswer c o.responses
  let own ← ownParameters c o.parameters
  let parameters ← inheritParameters c own inherited
  return { path, method, operationId := o.operationId
           description := o.summary.or o.description
           parameters, body, response }

/-- The parts of a path between slashes that are not empty. -/
def segments (cs : List Char) : List (List Char) :=
  (cs.splitOn '/').filter fun s => !s.isEmpty

/-- The text between braces, if the segment stands in braces. -/
def inBraces? : List Char → Option (List Char)
  | '\x7b' :: r =>
    match r.reverse with
    | '\x7d' :: middle => some middle.reverse
    | _ => none
  | _ => none

/-- The words for a segment of a path. -/
def segmentWords (segment : List Char) : List (List Char) :=
  match inBraces? segment with
  | some parameter => ["by".toList, pascalCase parameter]
  | none => [segment]

/-- The words that name an operation on a path: the method, unless it is `get`, and the segments. -/
def pathWords (method : Method) (path : String) : List (List Char) :=
  let words := (if method == .get then [] else [method.key.toList]) ++
    (segments path.toList).flatMap segmentWords
  if words.isEmpty then ["root".toList] else words

/-- Texts with a blank between any two. -/
def spaced : List (List Char) → List Char
  | [] => []
  | [w] => w
  | w :: r => w ++ ' ' :: spaced r

/-- The name of the endpoint's field on a root type. -/
def fieldName (e : Endpoint) : String :=
  match e.operationId with
  | some id => GraphQL.fieldName id
  | none => GraphQL.fieldName (String.ofList (spaced (pathWords e.method e.path)))

end Endpoint

/-- The endpoints of a path item. -/
def PathItem.endpoints (c : Components) (path : String) (item : PathItem) :
    Except Problem (List Endpoint) :=
  item.operations.mapM fun (method, o) => Endpoint.ofOperation c path method o item.parameters

/-- The endpoints on some paths. -/
def endpointsOn (c : Components) : List (String × RefOr PathItem) →
    Except Problem (List Endpoint)
  | [] => .ok []
  | (path, .reference _) :: _ => .error (.pathReference path)
  | (path, .item item) :: r => do
    let first ← item.endpoints c path
    let rest ← endpointsOn c r
    return first ++ rest

/-- The endpoints of a document, path by path. -/
def Document.endpoints (d : Document) : Except Problem (List Endpoint) :=
  endpointsOn d.components d.paths

end ApiGraph.OpenApi
