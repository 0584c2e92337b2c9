/-!
# Tokens of a YAML text

Tokens mark where collections begin and end, also where only the indentation tells so, and where
keys and values stand.  Anchors, tags and the texts of scalars are tokens too.
-/

namespace ApiGraph.Yaml

/-- What a text is read as, piece by piece. -/
inductive Token where
  | versionDirective (major minor : Nat)
  | tagDirective (handle tagStart : List Char)
  | documentStart
  | documentEnd
  | blockSequenceStart
  | blockMappingStart
  | blockEnd
  | flowSequenceStart
  | flowSequenceEnd
  | flowMappingStart
  | flowMappingEnd
  | blockEntry
  | flowEntry
  | key
  | value
  | alias (name : List Char)
  | anchor (name : List Char)
  | tag (handle suffix : List Char)
  /-- A scalar, and whether it is written without quotes and indicators. -/
  | scalar (text : List Char) (plain : Bool)
  | streamEnd
  deriving DecidableEq, Repr

end ApiGraph.Yaml
