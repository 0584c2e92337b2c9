import ApiGraph.Json.Reader
import ApiGraph.OpenApi.Problem
import ApiGraph.Text.Blank
import ApiGraph.Yaml.Reader

/-!
# Texts of documents

A document is written in JSON or in YAML.  Every JSON text is a YAML text too, so a text that does
not look like a JSON object is taken for YAML.
-/

namespace ApiGraph.OpenApi

/-- How a document is written. -/
inductive Format where
  | json
  | yaml
  deriving DecidableEq, Repr

/-- The format that a text seems to be in: JSON if it begins with a brace. -/
def Format.guess (text : String) : Format :=
  match Text.trimStart text.toList with
  | '\x7b' :: _ => .json
  | _ => .yaml

/-- Read the value that a text describes. -/
def readText (text : String) : Format → Except Problem Json
  | .json => match Json.read? text with
    | some j => .ok j
    | none => .error .notJson
  | .yaml => match Yaml.read? text with
    | some j => .ok j
    | none => .error .notYaml

end ApiGraph.OpenApi
