import ApiGraph.Dictionary

/-!
# Engine configurations

A configuration tells an execution engine which data sources there are, which fields each root type
resolves through them, and how fields are renamed.  Data sources and resolvers carry attributes: a
key with a text, with header fields, or with the arguments that fields pass on.

Attribute keys may repeat; a look-up takes the first attribute with the key.
-/

namespace ApiGraph.Engine

/-- The two root types that get resolvers. -/
inductive Root where
  | query
  | mutation
  deriving DecidableEq, Repr

namespace Root

/-- The name of the root type. -/
def name : Root → String
  | .query => "Query"
  | .mutation => "Mutation"

/-- The root type with the name, spelled exactly. -/
def ofName? (s : String) : Option Root :=
  if s == "Query" then some .query
  else if s == "Mutation" then some .mutation
  else none

/-- The roots, in the order of their resolvers in a finished configuration. -/
def all : List Root := [.query, .mutation]

end Root

/-- What a data source is. -/
inductive SourceKind where
  | httpJson
  | fastHttpJson
  | graphql
  | static
  deriving DecidableEq, Repr

namespace SourceKind

def name : SourceKind → String
  | .httpJson => "http_json"
  | .fastHttpJson => "fast_http_json"
  | .graphql => "graphql"
  | .static => "static"

def ofName? (s : String) : Option SourceKind :=
  [httpJson, fastHttpJson, graphql, static].find? fun k => k.name == s

end SourceKind

/-- Where the value of an argument comes from. -/
inductive ArgumentSource where
  | objectField
  | fieldArgument
  deriving DecidableEq, Repr

namespace ArgumentSource

def name : ArgumentSource → String
  | .objectField => "object_field"
  | .fieldArgument => "field_argument"

def ofName? (s : String) : Option ArgumentSource :=
  [objectField, fieldArgument].find? fun k => k.name == s

end ArgumentSource

/-- Header fields with their values, in the order in which they were first given. -/
abbrev Headers := Dictionary String

/-- An argument that a field passes on, and where its value comes from. -/
structure Argument where
  name : String
  source : ArgumentSource
  sourcePath : Option (List String) := none
  deriving DecidableEq, Repr

/-- The arguments that one field passes on. -/
structure FieldConfig where
  fieldName : String
  arguments : List Argument
  deriving DecidableEq, Repr

/-- The arguments that fields pass on, in the order in which they were given. -/
structure ArgumentsConfig where
  fields : List FieldConfig := []
  deriving DecidableEq, Repr

/-- The first configuration of the field. -/
def ArgumentsConfig.field? (a : ArgumentsConfig) (fieldName : String) : Option FieldConfig :=
  a.fields.find? fun f => f.fieldName == fieldName

/-- A text, arguments to pass on, or header fields. -/
inductive AttributeValue where
  | string (text : String)
  | arguments (config : ArgumentsConfig)
  | headers (headers : Headers)
  deriving DecidableEq, Repr

/-- The arguments, if these are the value. -/
def AttributeValue.arguments? : AttributeValue → Option ArgumentsConfig
  | .arguments config => some config
  | _ => none

/-- Something that a data source or a resolver is told, under a key. -/
structure Attribute where
  key : String
  value : AttributeValue
  deriving DecidableEq, Repr

namespace Attribute

def urlKey : String := "url"

def headersKey : String := "headers"

def argumentsKey : String := "arguments"

def url (url : String) : Attribute :=
  ⟨urlKey, .string url⟩

def headers (headers : Headers) : Attribute :=
  ⟨headersKey, .headers headers⟩

def arguments (config : ArgumentsConfig) : Attribute :=
  ⟨argumentsKey, .arguments config⟩

end Attribute

/-- Where the answers come from. -/
structure DataSource where
  kind : SourceKind
  name : String
  attributes : List Attribute
  deriving DecidableEq, Repr

/-- Resolves the fields of one type through the data source at an index. -/
structure Resolver where
  typeName : String
  dataSource : Nat
  fieldNames : List String
  attributes : List Attribute
  deriving DecidableEq, Repr

/-- Reads a field of a type from elsewhere in the answer of its data source. -/
structure Mapping where
  typeName : String
  fieldName : String
  disableDefaultMapping : Option Bool := none
  path : Option (List String) := none
  deriving DecidableEq, Repr

/-- What an engine needs to know to answer requests. -/
structure Configuration where
  dataSources : List DataSource := []
  resolvers : List Resolver := []
  mappings : List Mapping := []
  deriving DecidableEq, Repr

/-- Is there nothing in the configuration? -/
def Configuration.isEmpty (c : Configuration) : Bool :=
  c.dataSources.isEmpty && c.resolvers.isEmpty && c.mappings.isEmpty

/-- A data source at a URL.  Of header fields with the same name the last value counts; without
header fields there is no attribute for them. -/
def DataSource.at (kind : SourceKind) (name url : String) (headers : List (String × String)) :
    DataSource :=
  let merged : Headers := Dictionary.ofPairs headers
  { kind, name
    attributes := .url url :: if merged.isEmpty then [] else [.headers merged] }

namespace Resolver

/-- A resolver for a type that does not resolve any field yet. -/
def empty (typeName : String) (dataSource : Nat) (url : String) : Resolver :=
  { typeName, dataSource, fieldNames := [], attributes := [.url url] }

/-- Resolve one more field. -/
def addField (r : Resolver) (fieldName : String) : Resolver :=
  { r with fieldNames := r.fieldNames ++ [fieldName] }

/-- The first attribute with the key. -/
def attribute? (r : Resolver) (key : String) : Option Attribute :=
  r.attributes.find? fun a => a.key == key

/-- The arguments in the first attribute that is meant for them, if it holds arguments. -/
def arguments? (r : Resolver) : Option ArgumentsConfig :=
  (r.attribute? Attribute.argumentsKey).bind fun a => a.value.arguments?

/-- The place of the first attribute that is meant for arguments, and the resolver with an empty
one at its end if there was none. -/
def argumentsSlot (r : Resolver) : Nat × Resolver :=
  match r.attributes.findIdx? fun a => a.key == Attribute.argumentsKey with
  | some i => (i, r)
  | none => (r.attributes.length, { r with attributes := r.attributes ++ [.arguments {}] })

/-- The configuration of a field that passes on all of its arguments. -/
def passOn (fieldName : String) (argumentNames : List String) : FieldConfig :=
  { fieldName, arguments := argumentNames.map fun name => { name, source := .fieldArgument } }

/-- Add the configuration of a field to the attribute at a place; there is no result if that
attribute holds no arguments. -/
def addFieldConfig (r : Resolver) (index : Nat) (config : FieldConfig) : Option Resolver := do
  let a ← r.attributes[index]?
  let arguments ← a.value.arguments?
  let value := .arguments { arguments with fields := arguments.fields ++ [config] }
  return { r with attributes := r.attributes.set index { a with value } }

/-- Append an argument to the last field configuration of the attribute at a place; there is no
result if there is none. -/
def addArgument (r : Resolver) (index : Nat) (argument : Argument) : Option Resolver := do
  let a ← r.attributes[index]?
  let arguments ← a.value.arguments?
  let last ← arguments.fields.getLast?
  let last := { last with arguments := last.arguments ++ [argument] }
  let value := .arguments { arguments with fields := arguments.fields.dropLast ++ [last] }
  return { r with attributes := r.attributes.set index { a with value } }

/-- Insert an attribute at a place, or at the end if the place is behind it. -/
def insertAttribute (r : Resolver) (index : Nat) (a : Attribute) : Resolver :=
  { r with attributes := r.attributes.insertIdx (min index r.attributes.length) a }

end Resolver

end ApiGraph.Engine
