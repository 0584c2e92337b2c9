import ApiGraph.Json.Value

/-!
# Shapes of JSON values

A shape says what a JSON value has to look like: of which kind it is, which members an object must
or may have, and what shape these have in turn.  Members that a shape does not mention are free.
Shapes that contain themselves go through a `Part`, a name for one of the recursive shapes.

`Shape.fits` decides whether a value has a shape.
-/

namespace ApiGraph.OpenApi

/-- The recursive shapes of an OpenAPI document. -/
inductive Part where
  | schema
  | mediaType
  | pathItem
  deriving DecidableEq, Repr

/-- Whether a member may be missing, and whether null stands for a missing one. -/
inductive Presence where
  /-- The member has to be there. -/
  | required
  /-- The member may be missing or null. -/
  | optional
  /-- The member may be missing. -/
  | defaulted
  deriving DecidableEq, Repr

/-- What a value has to look like. -/
inductive Shape where
  | any
  | text
  | flag
  | number
  /-- A natural number below `2 ^ 64`, written as an integer. -/
  | count
  /-- One of some words. -/
  | word (names : List String)
  | list (item : Shape)
  /-- An object all of whose members have a shape. -/
  | dictionary (value : Shape)
  /-- An object whose members under the keys of a class have a shape. -/
  | dictionaryOn (isKey : String → Bool) (value : Shape)
  | record (fields : List (String × Presence × Shape))
  /-- An object with at least one of some members; the first of these that it has counts. -/
  | firstOf (cases : List (String × Shape))
  /-- An object with a word under a key, which settles the shape. -/
  | tagged (key : String) (cases : List (String × Shape))
  | both (first second : Shape)
  | either (first second : Shape)
  | part (p : Part)

namespace Shape

/-- A reference to something elsewhere in the document. -/
def reference : Shape := .record [("$ref", .required, .text)]

/-- A reference, or the thing itself. -/
def orReference (item : Shape) : Shape := .either reference item

/-- The word that a value stands for: a string, or an object with the word as its only key, over
null or an empty object. -/
def wordOf? : Json → Option String
  | .string s => some s
  | .object [(k, .null)] => some k
  | .object [(k, .object [])] => some k
  | _ => none

/-- The case that a value names: by its word, or by its place among the cases. -/
def caseOf? {α : Type} (cases : List (String × α)) : Json → Option String
  | .number (.integer n) => if 0 ≤ n then (cases[n.toNat]?).map (·.1) else none
  | .string s => some s
  | _ => none

def isObject : Json → Bool
  | .object _ => true
  | _ => false

/-- Does a member have the shape, where a missing or a null one may have to do? -/
def memberFits (presence : Presence) (fits : Json → Bool) : Option Json → Bool
  | none => presence != .required
  | some .null => presence == .optional || fits .null
  | some j => fits j

mutual

/-- Does the value have the shape, if `partFits` decides about parts? -/
def fitsWith (partFits : Part → Json → Bool) : Shape → Json → Bool
  | .any, _ => true
  | .text, j => j.string?.isSome
  | .flag, j => match j with
    | .bool _ => true
    | _ => false
  | .number, j => match j with
    | .number _ => true
    | _ => false
  | .count, j => match j with
    | .number (.integer n) => 0 ≤ n
    | _ => false
  | .word names, j => (wordOf? j).any names.contains
  | .list item, j => match j with
    | .array items => items.all (fitsWith partFits item)
    | _ => false
  | .dictionary value, j => isObject j && j.members.all fun m => fitsWith partFits value m.2
  | .dictionaryOn isKey value, j =>
    isObject j && j.members.all fun m => !isKey m.1 || fitsWith partFits value m.2
  | .record fields, j => isObject j && fieldsFit partFits fields j
  | .firstOf cases, j =>
    match j.members.find? fun m => cases.any fun c => c.1 == m.1 with
    | some (key, value) => caseFits partFits key cases value
    | none => false
  | .tagged key cases, j =>
    match (j.member? key).bind (caseOf? cases) with
    | some name => caseFits partFits name cases j
    | none => false
  | .both first second, j => fitsWith partFits first j && fitsWith partFits second j
  | .either first second, j => fitsWith partFits first j || fitsWith partFits second j
  | .part p, j => partFits p j

/-- Do the members of an object have the shapes of the fields? -/
def fieldsFit (partFits : Part → Json → Bool) : List (String × Presence × Shape) → Json → Bool
  | [], _ => true
  | (key, presence, s) :: r, j =>
    memberFits presence (fitsWith partFits s) (j.member? key) && fieldsFit partFits r j

/-- Does the value have the shape of the case with the name? -/
def caseFits (partFits : Part → Json → Bool) (name : String) :
    List (String × Shape) → Json → Bool
  | [], _ => false
  | (n, s) :: r, j => if n == name then fitsWith partFits s j else caseFits partFits name r j

end

end Shape

end ApiGraph.OpenApi
