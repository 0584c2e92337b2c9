import ApiGraph.OpenApi.Document
import ApiGraph.OpenApi.Problem

/-!
# Looking up components

A reference has the form `#/components/`, the kind of the component, a slash and its name.  A
component that is itself a reference is not followed any further.
-/

namespace ApiGraph.OpenApi

/-- The name of the component of a kind that the reference points at, if it has that form. -/
def componentName? (kind reference : String) : Option String :=
  ("#/components/" ++ kind ++ "/").toList.isPrefixOf? reference.toList |>.map String.ofList

/-- Find what a reference points at among the components of a kind, with its name. -/
def lookUp {α : Type} (kind : String) (components : Dictionary (RefOr α)) (reference : String) :
    Except Problem (String × α) :=
  match componentName? kind reference with
  | none => .error (.unresolvedReference reference)
  | some name =>
    match components.get? name with
    | none => .error (.unresolvedReference reference)
    | some (.reference _) => .error (.referenceToReference name)
    | some (.item value) => .ok (name, value)

namespace Components

def schema (c : Components) (reference : String) : Except Problem (String × Schema) :=
  lookUp "schemas" c.schemas reference

def parameter (c : Components) (reference : String) : Except Problem Parameter :=
  (lookUp "parameters" c.parameters reference).map (·.2)

def requestBody (c : Components) (reference : String) : Except Problem RequestBody :=
  (lookUp "requestBodies" c.requestBodies reference).map (·.2)

def response (c : Components) (reference : String) : Except Problem Response :=
  (lookUp "responses" c.responses reference).map (·.2)

/-- Follow a schema that may be a reference.  The first result is the name of the component. -/
def resolve (c : Components) : RefOr Schema → Except Problem (Option String × Schema)
  | .reference target => (c.schema target).map fun (name, s) => (some name, s)
  | .item s => .ok (none, s)

end Components

end ApiGraph.OpenApi
