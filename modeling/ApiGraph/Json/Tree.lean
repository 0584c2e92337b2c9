import ApiGraph.Json.Value

/-!
# JSON texts as trees

A tree still holds everything that a JSON text says: numbers as literals, objects with repeated
keys.  An escaped surrogate without its partner denotes no character; a string that holds one is
kept without a text, for a reader that does not look at it.

`Tree.value?` goes on to a value.  It refuses strings without a text, numbers beyond the format and
nesting deeper than a bound; of members with the same key the last counts, at the place of the
first.
-/

namespace ApiGraph.Json

/-- A JSON text as it was written. -/
inductive Tree where
  | null
  | bool (value : Bool)
  | number (literal : Literal)
  | string (text : Option String)
  | array (items : List Tree)
  | object (members : List (Option String × Tree))

namespace Tree

mutual

/-- The value of a tree whose arrays and objects are nested at most `depth` deep. -/
def value? (depth : Nat) : Tree → Option Json
  | .null => some .null
  | .bool b => some (.bool b)
  | .number l => l.number?.map .number
  | .string s => s.map .string
  | .array items =>
    match depth with
    | 0 => none
    | d + 1 => (itemValues? d items).map .array
  | .object members =>
    match depth with
    | 0 => none
    | d + 1 => (memberValues? d members).map fun ms => .object (Dictionary.ofPairs ms)

def itemValues? (depth : Nat) : List Tree → Option (List Json)
  | [] => some []
  | t :: r => do
    let j ← value? depth t
    return j :: (← itemValues? depth r)

def memberValues? (depth : Nat) : List (Option String × Tree) → Option (List (String × Json))
  | [] => some []
  | (k, t) :: r => do
    let k ← k
    let j ← value? depth t
    return (k, j) :: (← memberValues? depth r)

end

end Tree

/-- How deep arrays and objects may be nested in a text. -/
def maxDepth : Nat := 127

end ApiGraph.Json
