import ApiGraph.Engine.Resolvers
import ApiGraph.Generation.SchemaOf
import ApiGraph.Generator.Failure
import ApiGraph.Generator.Settings
import ApiGraph.GraphQL.Sdl.Printer
import ApiGraph.GraphQL.Sdl.Reader

/-!
# Generators

A generator works on one document.  It asks a service for the schema, prints it and reads it back,
once: a schema that was read back is kept, and every configuration comes from it.  After a failure
nothing is kept.

The service counts its calls, and it may refuse the first ones.
-/

namespace ApiGraph.Generator

open ApiGraph.Engine (Configuration)
open ApiGraph.Generation (Fault)

/-- A schema with its text, and the document that the text is. -/
structure PrintedSchema where
  schema : GraphQL.Schema
  sdl : List Char
  document : GraphQL.Sdl.Document

/-- Print a schema and read it back. -/
def PrintedSchema.ofSchema (schema : GraphQL.Schema) : Except Failure PrintedSchema :=
  let sdl := GraphQL.Sdl.print schema
  match GraphQL.Sdl.Document.read sdl with
  | .ok document => .ok { schema, sdl, document }
  | .error .malformed => .error .schemaText
  | .error .unreadable => .error (.breakdown .unreadableText)

/-- A fault as the failure of a generator. -/
def Failure.ofFault : Fault → Failure
  | .problem p => .schemaGeneration (.problem p)
  | .duplicateField name => .breakdown (.duplicateField name)
  | .unbounded => .breakdown .unbounded

/-- Makes schemas. -/
structure Service where
  /-- How many calls were made. -/
  calls : Nat := 0
  /-- How many of the next calls are refused. -/
  refusals : Nat := 0
  deriving DecidableEq, Repr

/-- Ask for the schema of a document. -/
def Service.request (s : Service) (document : Json) : Except Failure GraphQL.Schema × Service :=
  let answer :=
    if s.refusals == 0 then (Generation.schemaOf document).mapError Failure.ofFault
    else .error (.schemaGeneration .refused)
  (answer, { calls := s.calls + 1, refusals := s.refusals - 1 })

/-- A generator at work on one document.  Once it has a schema, it keeps it. -/
structure Session where
  document : Json
  service : Service := {}
  schema : Option PrintedSchema := none

namespace Session

/-- The printed schema of the document, made unless it is there. -/
def printedSchema (s : Session) : Except Failure PrintedSchema × Session :=
  match s.schema with
  | some printed => (.ok printed, s)
  | none =>
    let (answer, service) := s.service.request s.document
    match answer.bind PrintedSchema.ofSchema with
    | .ok printed => (.ok printed, { s with service, schema := some printed })
    | .error f => (.error f, { s with service })

/-- Generate a data source with its resolvers. -/
def generate (s : Session) (name url : String) (headers : List (String × String)) :
    Except Failure Configuration × Session :=
  let (printed, s) := s.printedSchema
  (printed.map fun p => Engine.configurationFor p.document name url headers, s)

/-- Generate the data source that settings describe. -/
def generateFrom (s : Session) (settings : Settings) : Except Failure Configuration × Session :=
  s.generate settings.name settings.url (settings.mergedHeaders?.getD [])

end Session

end ApiGraph.Generator
