import ApiGraph.GraphQL.Validation

/-!
# What can be wrong with a document

The reasons why a text is no document, or why a document has no schema, with their wording.
-/

namespace ApiGraph.OpenApi

/-- What is wrong. -/
inductive Problem where
  | unsupportedVersion (version : String)
  | missingVersion
  /-- The text is no JSON, or the document does not have the shape of an OpenAPI document. -/
  | notJson
  /-- The text is no YAML. -/
  | notYaml
  | referenceToReference (component : String)
  | pathReference (path : String)
  | arrayWithoutItems
  | unresolvedReference (reference : String)
  | duplicateArgument (field argument : String)
  | invalidSchema (violation : GraphQL.Violation)
  deriving DecidableEq, Repr

namespace Problem

/-- The wording; texts that cannot be read are not described any further. -/
def message? : Problem → Option String
  | .unsupportedVersion v => some ("We don't support version " ++ v ++ " of OpenAPI currently")
  | .missingVersion => some "The document doesn't declare which version of OpenAPI it uses"
  | .notJson => none
  | .notYaml => none
  | .referenceToReference c =>
    some ("The schema component " ++ c ++ " was a reference, which we don't currently support.")
  | .pathReference p =>
    some ("The path component " ++ p ++ " was a reference, which we don't currently support.")
  | .arrayWithoutItems =>
    some "Encountered an array without items, which we don't currently support"
  | .unresolvedReference r =>
    some ("Found a reference " ++ r ++ " which didn't seem to exist in the spec")
  | .duplicateArgument f a =>
    some ("The operation " ++ f ++ " ends up with more than one argument named " ++ a)
  | .invalidSchema v => some ("The generated GraphQL schema is invalid: " ++ v.message)

end Problem

end ApiGraph.OpenApi
