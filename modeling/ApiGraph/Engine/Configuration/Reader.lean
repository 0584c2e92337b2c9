import ApiGraph.Engine.Configuration
import ApiGraph.Json.Reader

/-!
# Reading configurations

A record is read from an object or from a list.  In an object, a known field may stand once, and
unknown fields are skipped, except in arguments, which have no others.  In a list the fields come
in order and only optional ones at the end may be missing.  An optional field may also be null.

The value of an attribute is read as the first of string, arguments and header fields that fits.
What is skipped only has to be well formed, but an attribute value as a whole has to be a proper
JSON value.
-/

namespace ApiGraph.Engine

open ApiGraph.Json (Tree)

namespace Reader

/-- The member under the key; there may be only one. -/
def single? (members : List (Option String × Tree)) (key : String) : Option (Option Tree) :=
  match members.filter fun m => m.1 == some key with
  | [] => some none
  | [(_, t)] => some (some t)
  | _ => none

/-- The fields of a record, in order, `none` for a missing one. -/
def fields? (names : List String) : Tree → Option (List (Option Tree))
  | .object members =>
    if members.all fun m => m.1.isSome then names.mapM (single? members) else none
  | .array items =>
    if items.length ≤ names.length then
      some (items.map some ++ List.replicate (names.length - items.length) none)
    else none
  | _ => none

/-- The fields of a record that has no others. -/
def onlyFields? (names : List String) (t : Tree) : Option (List (Option Tree)) :=
  match t with
  | .object members =>
    if members.all fun m => names.any fun n => m.1 == some n then fields? names t else none
  | _ => fields? names t

def string? : Tree → Option String
  | .string s => s
  | _ => none

def bool? : Tree → Option Bool
  | .bool b => some b
  | _ => none

/-- A natural number below `2 ^ 64`, written as an integer. -/
def index? : Tree → Option Nat
  | .number l =>
    match l.number? with
    | some (.integer n) => if 0 ≤ n then some n.toNat else none
    | _ => none
  | _ => none

def list? {α : Type} (item : Tree → Option α) : Tree → Option (List α)
  | .array items => items.mapM item
  | _ => none

/-- A field that may be missing or null. -/
def optional? {α : Type} (read : Tree → Option α) : Option Tree → Option (Option α)
  | none => some none
  | some .null => some none
  | some t => (read t).map some

/-- The name of a constant: a string, or an object with the name as its only key, over null. -/
def constant? : Tree → Option String
  | .string s => s
  | .object [(some k, .null)] => some k
  | _ => none

/-- The name of a constant inside an attribute value, where an empty object may also stand for
the null. -/
def innerConstant? : Tree → Option String
  | .object [(some k, .object [])] => some k
  | t => constant? t

def argument? (t : Tree) : Option Argument := do
  match ← fields? ["name", "source", "source_path"] t with
  | [name, source, path] =>
    let name ← name.bind string?
    let source ← (source.bind innerConstant?).bind ArgumentSource.ofName?
    let sourcePath ← optional? (list? string?) path
    return { name, source, sourcePath }
  | _ => none

def fieldConfig? (t : Tree) : Option FieldConfig := do
  match ← fields? ["field_name", "arguments"] t with
  | [name, arguments] =>
    let fieldName ← name.bind string?
    let arguments ← arguments.bind (list? argument?)
    return { fieldName, arguments }
  | _ => none

def arguments? (t : Tree) : Option ArgumentsConfig := do
  match ← onlyFields? ["fields"] t with
  | [fields] =>
    let fields ← fields.bind (list? fieldConfig?)
    return { fields }
  | _ => none

def header? : Option String × Tree → Option (String × String)
  | (some k, .string (some v)) => some (k, v)
  | _ => none

def headers? : Tree → Option Headers
  | .object members => (members.mapM header?).map Dictionary.ofPairs
  | _ => none

/-- The first of string, arguments and header fields that fits. -/
def firstFit? (t : Tree) : Option AttributeValue :=
  ((string? t).map .string).or (((arguments? t).map .arguments).or ((headers? t).map .headers))

/-- Read the value of an attribute that has `around` records and lists around it. -/
def attributeValue? (around : Nat) (t : Tree) : Option AttributeValue :=
  if (t.value? (Json.maxDepth - around)).isSome then firstFit? t else none

/-- Read an attribute whose value has `around` records and lists around it. -/
def attribute? (around : Nat) (t : Tree) : Option Attribute := do
  match ← fields? ["key", "value"] t with
  | [key, value] =>
    let key ← key.bind string?
    let value ← value.bind (attributeValue? around)
    return { key, value }
  | _ => none

/-- The attributes of a data source or a resolver: the configuration, the list that the record is
in, the record, its attributes and the attribute are around a value. -/
def attributes? : Tree → Option (List Attribute) :=
  list? (attribute? 5)

def dataSource? (t : Tree) : Option DataSource := do
  match ← fields? ["kind", "name", "default_attributes"] t with
  | [kind, name, attributes] =>
    let kind ← (kind.bind constant?).bind SourceKind.ofName?
    let name ← name.bind string?
    let attributes ← attributes.bind attributes?
    return { kind, name, attributes }
  | _ => none

def resolver? (t : Tree) : Option Resolver := do
  match ← fields? ["type_name", "data_source", "field_names", "attributes"] t with
  | [typeName, dataSource, fieldNames, attributes] =>
    let typeName ← typeName.bind string?
    let dataSource ← dataSource.bind index?
    let fieldNames ← fieldNames.bind (list? string?)
    let attributes ← attributes.bind attributes?
    return { typeName, dataSource, fieldNames, attributes }
  | _ => none

def mapping? (t : Tree) : Option Mapping := do
  match ← fields? ["type_name", "field_name", "disable_default_mapping", "path"] t with
  | [typeName, fieldName, disable, path] =>
    let typeName ← typeName.bind string?
    let fieldName ← fieldName.bind string?
    let disableDefaultMapping ← optional? bool? disable
    let path ← optional? (list? string?) path
    return { typeName, fieldName, disableDefaultMapping, path }
  | _ => none

def configuration? (t : Tree) : Option Configuration := do
  match ← fields? ["data_sources", "resolvers", "mappings"] t with
  | [dataSources, resolvers, mappings] =>
    let dataSources ← dataSources.bind (list? dataSource?)
    let resolvers ← resolvers.bind (list? resolver?)
    let mappings ← mappings.bind (list? mapping?)
    return { dataSources, resolvers, mappings }
  | _ => none

end Reader

/-- Read a configuration from JSON text. -/
def Configuration.read? (s : String) : Option Configuration :=
  (Tree.read? s.toList).bind Reader.configuration?

/-- Read an attribute from JSON text. -/
def Attribute.read? (s : String) : Option Attribute :=
  (Tree.read? s.toList).bind (Reader.attribute? 1)

end ApiGraph.Engine
