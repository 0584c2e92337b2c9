import ApiGraph.Dictionary

/-!
# Settings of a generator

The settings describe the data source to generate: its name, its URL as it was written, and header
fields.
-/

namespace ApiGraph.Generator

/-- The data source to generate. -/
structure Settings where
  name : String
  url : String
  headers : List (String × String) := []
  deriving DecidableEq, Repr

/-- The header fields, each name once with its last value; nothing if there are none. -/
def Settings.mergedHeaders? (s : Settings) : Option (Dictionary String) :=
  if s.headers.isEmpty then none else some (Dictionary.ofPairs s.headers)

end ApiGraph.Generator
