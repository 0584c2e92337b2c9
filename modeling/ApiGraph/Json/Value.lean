import ApiGraph.Dictionary
import ApiGraph.Json.Number

/-!
# JSON values

A JSON value keeps the members of an object in order, each key once.
-/

namespace ApiGraph

/-- A JSON value. -/
inductive Json where
  | null
  | bool (value : Bool)
  | number (value : Json.Number)
  | string (value : String)
  | array (items : List Json)
  | object (members : List (String × Json))

namespace Json

/-- The member of an object under the key, if the value is an object that has it. -/
def member? (j : Json) (key : String) : Option Json :=
  match j with
  | .object members => Dictionary.get? members key
  | _ => none

/-- The members of an object; none for any other value. -/
def members : Json → List (String × Json)
  | .object members => members
  | _ => []

/-- The items of an array; none for any other value. -/
def items : Json → List Json
  | .array items => items
  | _ => []

/-- The text, if the value is a string. -/
def string? : Json → Option String
  | .string s => some s
  | _ => none

def isNull : Json → Bool
  | .null => true
  | _ => false

mutual

/-- How deep arrays and objects are nested in the value. -/
def depth : Json → Nat
  | .array items => depthOfItems items + 1
  | .object members => depthOfMembers members + 1
  | _ => 0

def depthOfItems : List Json → Nat
  | [] => 0
  | j :: r => max (depth j) (depthOfItems r)

def depthOfMembers : List (String × Json) → Nat
  | [] => 0
  | (_, j) :: r => max (depth j) (depthOfMembers r)

end

end Json

end ApiGraph
