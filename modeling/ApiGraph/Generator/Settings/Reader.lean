import ApiGraph.Generator.Failure
import ApiGraph.Generator.Settings
import ApiGraph.Toml.Reader
import ApiGraph.Url.Absolute

/-!
# Reading settings

Settings are written in TOML: a table `data_source` with a name, a URL and perhaps header fields.
Each of the records may also be an array of its fields in order.  A table has no other members.

The URL has to be absolute; it is kept as it is written.
-/

namespace ApiGraph.Generator

open ApiGraph.Toml (Value)

/-- The fields of a record: the members of a table that has no others, or the first items of an
array. -/
def recordFields? (names : List String) : Value → Option (List (Option Value))
  | .table _ members =>
    if members.all fun m => names.contains m.1 then some (names.map (Dictionary.get? members))
    else none
  | .array items => some ((List.range names.length).map fun i => items[i]?)
  | .tables tables => some ((List.range names.length).map fun i => tables[i]?.map (.table .header))
  | _ => none

def stringField? : Option Value → Option String
  | some (.string s) => some s
  | _ => none

/-- A header field: its name and its value. -/
def headerField? (v : Value) : Option (String × String) := do
  match ← recordFields? ["name", "value"] v with
  | [name, value] => return (← stringField? name, ← stringField? value)
  | _ => none

def headerFields? : Option Value → Option (List (String × String))
  | none => some []
  | some (.array items) => items.mapM headerField?
  | some (.tables tables) => tables.mapM fun t => headerField? (.table .header t)
  | some _ => none

/-- The data source that a value describes. -/
def dataSource? (v : Value) : Option Settings := do
  match ← recordFields? ["name", "url", "headers"] v with
  | [name, url, headers] =>
    return { name := ← stringField? name, url := ← stringField? url,
             headers := ← headerFields? headers }
  | _ => none

/-- The settings that the members of a text describe. -/
def Settings.ofMembers? (members : Toml.Members) : Option Settings := do
  match ← recordFields? ["data_source"] (.table .header members) with
  | [some v] => dataSource? v
  | _ => none

/-- Read settings. -/
def Settings.read (text : String) : Except Failure Settings :=
  match (Toml.read? text).bind Settings.ofMembers? with
  | none => .error .invalidSettings
  | some settings =>
    match Url.check settings.url with
    | .ok () => .ok settings
    | .error p => .error (.invalidUrl settings.url p.message)

end ApiGraph.Generator
