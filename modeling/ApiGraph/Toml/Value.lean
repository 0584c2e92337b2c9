import ApiGraph.Dictionary

/-!
# TOML values

A table remembers how it came about, since that settles what may still be added to it.  A table in
braces is complete.  A table with a header gets its members behind the header, once.  A table that
is only implied by the header of a table inside it may still get a header of its own, and one that
is implied by a dotted key may get further dotted keys.

An array in brackets is complete as well; an array of tables grows by headers.

`Members.insert?` adds what a key says, `Members.open?` and `Members.append?` what a header says.
-/

namespace ApiGraph.Toml

/-- How a table came about. -/
inductive Origin where
  | braces
  | header
  | implied
  | dotted
  deriving DecidableEq, Repr

/-- A value, with the origin of tables. -/
inductive Value where
  | string (text : String)
  | integer (value : Int)
  /-- A float, as it is written. -/
  | float (text : List Char)
  | boolean (value : Bool)
  /-- A date, a time or both, as they are written. -/
  | dateTime (text : List Char)
  | array (items : List Value)
  | tables (elements : List (List (String × Value)))
  | table (origin : Origin) (members : List (String × Value))

/-- The members of a table, in order. -/
abbrev Members := Dictionary Value

namespace Members

/-- Change the table behind keys, each of which leads on from a table or from the last table of an
array.  Tables that are missing on the way are made with the origin `made`.  A key that was dotted
itself does not lead on from a table with a header. -/
def update (made : Origin) (change : Origin → Members → Option Members) :
    List String → Origin → Members → Option Members
  | [], origin, ms => change origin ms
  | key :: path, _, ms =>
    match Dictionary.get? ms key with
    | none => (update made change path made []).map fun t => Dictionary.put ms key (.table made t)
    | some (.table origin t) =>
      if origin == .braces || (made == .dotted && origin == .header) then none
      else
        (update made change path origin t).map fun t => Dictionary.put ms key (.table origin t)
    | some (.tables ts) =>
      match ts.getLast? with
      | some t =>
        (update made change path .header t).map fun t =>
          Dictionary.put ms key (.tables (ts.dropLast ++ [t]))
      | none => none
    | some _ => none

/-- Give a new key its value.  The keys before it are those of a dotted key, and the table they
lead to has to be one of dotted keys. -/
def insert? (ms : Members) (origin : Origin) (path : List String) (key : String) (value : Value) :
    Option Members :=
  update .dotted (fun origin t =>
    if (!path.isEmpty && origin != .dotted) || (Dictionary.get? t key).isSome then none
    else some (Dictionary.put t key value)) path origin ms

/-- Begin the table with the key, which may only be implied so far. -/
def open? (ms : Members) (path : List String) (key : String) : Option Members :=
  update .implied (fun _ t =>
    match Dictionary.get? t key with
    | none => some (Dictionary.put t key (.table .header []))
    | some (.table .implied inner) => some (Dictionary.put t key (.table .header inner))
    | some _ => none) path .header ms

/-- Begin a further table of the array with the key. -/
def append? (ms : Members) (path : List String) (key : String) : Option Members :=
  update .implied (fun _ t =>
    match Dictionary.get? t key with
    | none => some (Dictionary.put t key (.tables [[]]))
    | some (.tables ts) => some (Dictionary.put t key (.tables (ts ++ [[]])))
    | some _ => none) path .header ms

end Members

end ApiGraph.Toml
