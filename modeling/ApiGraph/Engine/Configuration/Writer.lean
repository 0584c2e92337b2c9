import ApiGraph.Engine.Configuration
import ApiGraph.Json.Value

/-!
# Configurations as JSON

Every record is an object with its fields in a fixed order.  An optional field that is absent is
left out.  The value of an attribute is written by its shape alone: a string, an object with the
one field `fields`, or an object of strings.
-/

namespace ApiGraph.Engine

/-- An array of strings. -/
def jsonOfStrings (ss : List String) : Json :=
  .array (ss.map .string)

/-- A field of an object that is left out when absent. -/
def optionalField (key : String) : Option Json → List (String × Json)
  | none => []
  | some j => [(key, j)]

namespace Argument

def toJson (a : Argument) : Json :=
  .object ([("name", .string a.name), ("source", .string a.source.name)] ++
    optionalField "source_path" (a.sourcePath.map jsonOfStrings))

end Argument

def FieldConfig.toJson (f : FieldConfig) : Json :=
  .object [("field_name", .string f.fieldName), ("arguments", .array (f.arguments.map (·.toJson)))]

def ArgumentsConfig.toJson (a : ArgumentsConfig) : Json :=
  .object [("fields", .array (a.fields.map (·.toJson)))]

def Headers.toJson (h : Headers) : Json :=
  .object (h.map fun (k, v) => (k, .string v))

def AttributeValue.toJson : AttributeValue → Json
  | .string s => .string s
  | .arguments a => a.toJson
  | .headers h => Headers.toJson h

def Attribute.toJson (a : Attribute) : Json :=
  .object [("key", .string a.key), ("value", a.value.toJson)]

def DataSource.toJson (d : DataSource) : Json :=
  .object [
    ("kind", .string d.kind.name),
    ("name", .string d.name),
    ("default_attributes", .array (d.attributes.map (·.toJson)))]

def Resolver.toJson (r : Resolver) : Json :=
  .object [
    ("type_name", .string r.typeName),
    ("data_source", .number (.integer r.dataSource)),
    ("field_names", jsonOfStrings r.fieldNames),
    ("attributes", .array (r.attributes.map (·.toJson)))]

def Mapping.toJson (m : Mapping) : Json :=
  .object ([("type_name", .string m.typeName), ("field_name", .string m.fieldName)] ++
    optionalField "disable_default_mapping" (m.disableDefaultMapping.map .bool) ++
    optionalField "path" (m.path.map jsonOfStrings))

def Configuration.toJson (c : Configuration) : Json :=
  .object [
    ("data_sources", .array (c.dataSources.map (·.toJson))),
    ("resolvers", .array (c.resolvers.map (·.toJson))),
    ("mappings", .array (c.mappings.map (·.toJson)))]

end ApiGraph.Engine
