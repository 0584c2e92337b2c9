import ApiGraph.OpenApi.Shape

/-!
# The shape of an OpenAPI document

The records of OpenAPI 3, as shapes.  `Model.fits` decides whether a JSON value is a document of
this form; all of it counts, also what nothing refers to.

Paths are the keys that begin with a slash, and responses are the keys that name a status: three
digits, or a digit and two letters `X`.  What is under other keys is free.
-/

namespace ApiGraph.OpenApi

/-- The status of a response: a code, or all codes of a hundred. -/
inductive Status where
  | code (n : Nat)
  | range (hundreds : Nat)
  deriving DecidableEq, Repr

namespace Status

def digit? (c : Char) : Option Nat :=
  if c.isDigit then some (c.toNat - '0'.toNat) else none

/-- The status that a key names, if it names one. -/
def ofKey? (key : String) : Option Status :=
  match key.toList with
  | [a, b, c] =>
    if (b == 'x' || b == 'X') && (c == 'x' || c == 'X') then (digit? a).map .range
    else do
      let n := 100 * (← digit? a) + 10 * (← digit? b) + (← digit? c)
      if 100 ≤ n then some (.code n) else none
  | _ => none

/-- Is it a status of success? -/
def isSuccess : Status → Bool
  | .code n => 200 ≤ n && n < 300
  | .range hundreds => hundreds == 2

end Status

/-- Does the key name a path? -/
def isPathKey (key : String) : Bool :=
  key.toList.head? == some '/'

/-- Does the key name a status? -/
def isStatusKey (key : String) : Bool :=
  (Status.ofKey? key).isSome

namespace Model

open Shape

def schema : Shape := .part .schema

def mediaType : Shape := .part .mediaType

def pathItem : Shape := .part .pathItem

def schemaOrReference : Shape := orReference schema

def externalDocs : Shape := .record [("url", .required, .text), ("description", .optional, .text)]

def exampleRecord : Shape := .record [
  ("summary", .optional, .text),
  ("description", .optional, .text),
  ("value", .optional, .any),
  ("externalValue", .optional, .text)]

def examples : Shape := .dictionary (orReference exampleRecord)

def content : Shape := .dictionary mediaType

/-- What a parameter or a header looks like: a schema, or one for each content type. -/
def schemaOrContent : Shape := .firstOf [("schema", schemaOrReference), ("content", content)]

def header : Shape := .both schemaOrContent (.record [
  ("description", .optional, .text),
  ("style", .defaulted, .word ["simple"]),
  ("required", .defaulted, .flag),
  ("deprecated", .optional, .flag),
  ("example", .optional, .any),
  ("examples", .defaulted, examples)])

def headers : Shape := .dictionary (orReference header)

def queryStyle : Shape := .word ["form", "spaceDelimited", "pipeDelimited", "deepObject"]

def encoding : Shape := .record [
  ("contentType", .optional, .text),
  ("headers", .defaulted, headers),
  ("style", .optional, queryStyle),
  ("explode", .defaulted, .flag),
  ("allowReserved", .defaulted, .flag)]

def mediaTypeRecord : Shape := .record [
  ("schema", .optional, schemaOrReference),
  ("example", .optional, .any),
  ("examples", .defaulted, examples),
  ("encoding", .defaulted, .dictionary encoding)]

/-- What all parameters have. -/
def parameterData : Shape := .both schemaOrContent (.record [
  ("name", .required, .text),
  ("description", .optional, .text),
  ("required", .defaulted, .flag),
  ("deprecated", .optional, .flag),
  ("example", .optional, .any),
  ("examples", .defaulted, examples),
  ("explode", .optional, .flag)])

/-- Where parameters may be. -/
def parameterLocations : List (String × Shape) := [
  ("query", .record [
    ("allowReserved", .defaulted, .flag),
    ("style", .defaulted, queryStyle),
    ("allowEmptyValue", .optional, .flag)]),
  ("header", .record [("style", .defaulted, .word ["simple"])]),
  ("path", .record [("style", .defaulted, .word ["matrix", "label", "simple"])]),
  ("cookie", .record [("style", .defaulted, .word ["form"])])]

def parameter : Shape := .both (.tagged "in" parameterLocations) parameterData

def requestBody : Shape := .record [
  ("description", .optional, .text),
  ("content", .defaulted, content),
  ("required", .defaulted, .flag)]

def server : Shape := .record [
  ("url", .required, .text),
  ("description", .optional, .text),
  ("variables", .optional, .dictionary (.record [
    ("enum", .defaulted, .list .text),
    ("default", .required, .text),
    ("description", .optional, .text)]))]

def link : Shape := .both
  (.firstOf [("operationRef", .text), ("operationId", .text)])
  (.record [
    ("description", .optional, .text),
    ("requestBody", .optional, .any),
    ("parameters", .defaulted, .dictionary .any),
    ("server", .optional, server)])

def response : Shape := .record [
  ("description", .required, .text),
  ("headers", .defaulted, headers),
  ("content", .defaulted, content),
  ("links", .defaulted, .dictionary (orReference link))]

def responses : Shape := .both
  (.record [("default", .optional, orReference response)])
  (.dictionaryOn isStatusKey (orReference response))

def callback : Shape := .dictionary pathItem

/-- Names of security schemes, each with its scopes. -/
def security : Shape := .list (.dictionary (.list .text))

def operation : Shape := .record [
  ("tags", .defaulted, .list .text),
  ("summary", .optional, .text),
  ("description", .optional, .text),
  ("externalDocs", .optional, externalDocs),
  ("operationId", .optional, .text),
  ("parameters", .defaulted, .list (orReference parameter)),
  ("requestBody", .optional, orReference requestBody),
  ("responses", .required, responses),
  ("callbacks", .defaulted, .dictionary callback),
  ("deprecated", .defaulted, .flag),
  ("security", .optional, security),
  ("servers", .defaulted, .list server)]

def pathItemRecord : Shape := .record [
  ("summary", .optional, .text),
  ("description", .optional, .text),
  ("get", .optional, operation),
  ("put", .optional, operation),
  ("post", .optional, operation),
  ("delete", .optional, operation),
  ("options", .optional, operation),
  ("head", .optional, operation),
  ("patch", .optional, operation),
  ("trace", .optional, operation),
  ("servers", .defaulted, .list server),
  ("parameters", .defaulted, .list (orReference parameter))]

def schemaRecord : Shape := .record [
  ("nullable", .defaulted, .flag),
  ("readOnly", .defaulted, .flag),
  ("writeOnly", .defaulted, .flag),
  ("deprecated", .defaulted, .flag),
  ("externalDocs", .optional, externalDocs),
  ("example", .optional, .any),
  ("title", .optional, .text),
  ("description", .optional, .text),
  ("discriminator", .optional, .record [
    ("propertyName", .required, .text),
    ("mapping", .defaulted, .dictionary .text)]),
  ("default", .optional, .any),
  ("type", .optional, .text),
  ("pattern", .optional, .text),
  ("multipleOf", .optional, .number),
  ("exclusiveMinimum", .optional, .flag),
  ("exclusiveMaximum", .optional, .flag),
  ("minimum", .optional, .number),
  ("maximum", .optional, .number),
  ("properties", .optional, .dictionary schemaOrReference),
  ("required", .optional, .list .text),
  ("additionalProperties", .optional, .either .flag schemaOrReference),
  ("minProperties", .optional, .count),
  ("maxProperties", .optional, .count),
  ("items", .optional, schemaOrReference),
  ("minItems", .optional, .count),
  ("maxItems", .optional, .count),
  ("uniqueItems", .optional, .flag),
  ("enum", .optional, .list .any),
  ("format", .optional, .text),
  ("minLength", .optional, .count),
  ("maxLength", .optional, .count),
  ("oneOf", .optional, .list schemaOrReference),
  ("allOf", .optional, .list schemaOrReference),
  ("anyOf", .optional, .list schemaOrReference),
  ("not", .optional, schemaOrReference)]

def scopes : String × Presence × Shape := ("scopes", .defaulted, .dictionary .text)

def refreshUrl : String × Presence × Shape := ("refreshUrl", .optional, .text)

def tokenFlow : Shape := .record [("tokenUrl", .required, .text), refreshUrl, scopes]

def securityScheme : Shape := .tagged "type" [
  ("apiKey", .record [
    ("in", .required, .word ["query", "header", "cookie"]),
    ("name", .required, .text),
    ("description", .optional, .text)]),
  ("http", .record [
    ("scheme", .required, .text),
    ("bearerFormat", .optional, .text),
    ("description", .optional, .text)]),
  ("oauth2", .record [
    ("flows", .required, .record [
      ("implicit", .optional, .record [("authorizationUrl", .required, .text), refreshUrl, scopes]),
      ("password", .optional, tokenFlow),
      ("clientCredentials", .optional, tokenFlow),
      ("authorizationCode", .optional, .record [
        ("authorizationUrl", .required, .text),
        ("tokenUrl", .required, .text), refreshUrl, scopes])]),
    ("description", .optional, .text)]),
  ("openIdConnect", .record [
    ("openIdConnectUrl", .required, .text),
    ("description", .optional, .text)])]

/-- Components of one kind. -/
def componentsOf (item : Shape) : Shape := .dictionary (orReference item)

def components : Shape := .record [
  ("securitySchemes", .defaulted, componentsOf securityScheme),
  ("responses", .defaulted, componentsOf response),
  ("parameters", .defaulted, componentsOf parameter),
  ("examples", .defaulted, componentsOf exampleRecord),
  ("requestBodies", .defaulted, componentsOf requestBody),
  ("headers", .defaulted, componentsOf header),
  ("schemas", .defaulted, componentsOf schema),
  ("links", .defaulted, componentsOf link),
  ("callbacks", .defaulted, componentsOf callback)]

def info : Shape := .record [
  ("title", .required, .text),
  ("version", .required, .text),
  ("description", .optional, .text),
  ("termsOfService", .optional, .text),
  ("contact", .optional, .record [
    ("name", .optional, .text), ("url", .optional, .text), ("email", .optional, .text)]),
  ("license", .optional, .record [("name", .required, .text), ("url", .optional, .text)])]

def document : Shape := .record [
  ("openapi", .required, .text),
  ("info", .required, info),
  ("servers", .defaulted, .list server),
  ("paths", .required, .dictionaryOn isPathKey (orReference pathItem)),
  ("components", .optional, components),
  ("security", .optional, security),
  ("tags", .defaulted, .list (.record [
    ("name", .required, .text),
    ("description", .optional, .text),
    ("externalDocs", .optional, externalDocs)])),
  ("externalDocs", .optional, externalDocs)]

def shapeOf : Part → Shape
  | .schema => schemaRecord
  | .mediaType => mediaTypeRecord
  | .pathItem => pathItemRecord

/-- Does the value have the shape of the part?  A part inside a part is in a member of an object,
so the first argument need only exceed the depth of the value. -/
def partFits : Nat → Part → Json → Bool
  | 0, _, _ => false
  | n + 1, p, j => (shapeOf p).fitsWith (partFits n) j

/-- Does the value have the shape of a document? -/
def fits (j : Json) : Bool :=
  document.fitsWith (partFits (j.depth + 1)) j

end Model

end ApiGraph.OpenApi
