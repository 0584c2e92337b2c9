import ApiGraph.Generator.Session
import ApiGraph.Generator.Settings.Reader

/-!
# Steps of a session

What can be asked of a generator while a session lasts: the document, the printed schema, a data
source with its resolvers, or the data source that settings describe.  Each step has an answer or
fails, and the session goes on in either case.
-/

namespace ApiGraph.Generator

open ApiGraph.Engine (Configuration)

namespace Session

/-- What is asked of a generator. -/
inductive Step where
  | document
  | schema
  | generate (name url : String) (headers : List (String × String))
  /-- Settings in TOML, which may be no settings at all. -/
  | settings (toml : String)
  deriving DecidableEq, Repr

/-- What a step gives. -/
inductive Answer where
  | document (j : Json)
  | schema (printed : PrintedSchema)
  | configuration (config : Configuration)

/-- Does the step need the printed schema?  Settings that cannot be read come to nothing before. -/
def Step.needsSchema : Step → Bool
  | .document => false
  | .schema | .generate .. => true
  | .settings toml => (Settings.read toml).isOk

/-- Take a step. -/
def perform (s : Session) : Step → Except Failure Answer × Session
  | .document => (.ok (.document s.document), s)
  | .schema =>
    let (printed, s) := s.printedSchema
    (printed.map .schema, s)
  | .generate name url headers =>
    let (config, s) := s.generate name url headers
    (config.map .configuration, s)
  | .settings toml =>
    match Settings.read toml with
    | .error f => (.error f, s)
    | .ok settings =>
      let (config, s) := s.generateFrom settings
      (config.map .configuration, s)

/-- The session after some steps. -/
def after (s : Session) (steps : List Step) : Session :=
  steps.foldl (fun s step => (s.perform step).2) s

/-- The steps that need the schema, up to and including the first one that obtains it. -/
def untilObtained (s : Session) : List Step → List Step
  | [] => []
  | step :: rest =>
    if !step.needsSchema then (s.perform step).2.untilObtained rest
    else if (s.perform step).1.isOk then [step]
    else step :: (s.perform step).2.untilObtained rest

end Session

end ApiGraph.Generator
