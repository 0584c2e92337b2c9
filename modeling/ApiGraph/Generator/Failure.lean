import ApiGraph.OpenApi.Problem

/-!
# Why there is no configuration

The reasons why a generator gives no configuration, with their wording.  A breakdown is no answer
of the generator: it breaks off in the middle of its work.
-/

namespace ApiGraph.Generator

open ApiGraph.OpenApi (Problem)

/-- Why the work breaks off. -/
inductive Breakdown where
  /-- Two fields of one type would get the same name. -/
  | duplicateField (name : String)
  /-- A description holds a character that cannot be read in a block string. -/
  | unreadableText
  /-- The types of the document do not come to an end. -/
  | unbounded
  deriving DecidableEq, Repr

/-- The wording. -/
def Breakdown.message : Breakdown → String
  | .duplicateField name => "Field \x60" ++ name ++ "\x60 already exists"
  | .unreadableText => "internal error: entered unreachable code"
  | .unbounded => "unbounded recursion"

/-- Why the service that makes schemas does not make one. -/
inductive ServiceFailure where
  | problem (p : Problem)
  | refused
  deriving DecidableEq, Repr

/-- Why there is no configuration. -/
inductive Failure where
  | invalidDocument (p : Problem)
  | schemaGeneration (source : ServiceFailure)
  /-- The text of the schema is no document. -/
  | schemaText
  | invalidSettings
  | invalidUrl (url detail : String)
  | breakdown (b : Breakdown)
  deriving DecidableEq, Repr

/-- The wording, as far as there is one. -/
def ServiceFailure.message? : ServiceFailure → Option String
  | .problem p => p.message?
  | .refused => some "refused"

/-- The wording; the text of a schema that is no document is not described any further. -/
def Failure.message? : Failure → Option String
  | .invalidDocument _ => some "Could not parse the OpenAPI document"
  | .schemaGeneration _ => some "Could not generate a GraphQL schema from the OpenAPI document"
  | .schemaText => none
  | .invalidSettings => some "Invalid generator settings"
  | .invalidUrl url detail => some ("Invalid data source url " ++ url ++ ": " ++ detail)
  | .breakdown b => some b.message

end ApiGraph.Generator
