import ApiGraph.GraphQL.Name
import ApiGraph.GraphQL.Schema

/-!
# Handing out type names

Every type gets a name of its own.  A schema component has the first claim to the name made from
its own; a schema without a name, which is called after the place where it stands, steps aside for
all of these.  A name that is not free is followed by the least number from two up that makes it
so.

The names of the root types and of the scalar `JSON` are never handed out.
-/

namespace ApiGraph.Generation

open ApiGraph.GraphQL

/-- Whether a type is used for answers or for arguments. -/
inductive Position where
  | output
  | input
  deriving DecidableEq, Repr

/-- What the names of types in input position end in. -/
def inputSuffix : String := "Input"

/-- The name that a type would like to have, given the name of its schema. -/
def Position.preferred : Position → String → String
  | .output, base => base
  | .input, base => base ++ inputSuffix

/-- Who claims a name. -/
inductive Claimant where
  | component
  | inlined
  deriving DecidableEq, Repr

/-- The names that are in use, and those that are kept for components. -/
structure NamePool where
  /-- The names that have been handed out, and those that never are. -/
  taken : List String
  /-- The names kept for components. -/
  reserved : List String
  deriving DecidableEq, Repr

namespace NamePool

/-- The names that the types of a component would like to have. -/
def ofComponent (component : String) : List String :=
  [Position.input.preferred (typeName component), Position.output.preferred (typeName component)]

/-- The state before any claim, for a document with the given schema components. -/
def start (components : List String) : NamePool :=
  { taken := [queryName, mutationName, jsonName], reserved := components.flatMap ofComponent }

/-- May the claimant have the name? -/
def isFree (p : NamePool) (claimant : Claimant) (name : String) : Bool :=
  !p.taken.contains name && !(claimant == .inlined && p.reserved.contains name)

/-- The name followed by a number. -/
def numbered (name : String) (n : Nat) : String :=
  name ++ String.ofList (Nat.toDigits 10 n)

/-- The first numbered name from `n` on that is free, among `tries` of them. -/
def firstFree (p : NamePool) (claimant : Claimant) (preferred : String) : Nat → Nat → String
  | 0, n => numbered preferred n
  | tries + 1, n =>
    if p.isFree claimant (numbered preferred n) then numbered preferred n
    else p.firstFree claimant preferred tries (n + 1)

/-- The name that a claim yields.  One more try than there are names to avoid is enough. -/
def choose (p : NamePool) (claimant : Claimant) (preferred : String) : String :=
  if p.isFree claimant preferred then preferred
  else p.firstFree claimant preferred (p.taken.length + p.reserved.length) 2

/-- Claim a name; it is taken from then on. -/
def claim (p : NamePool) (claimant : Claimant) (preferred : String) : String × NamePool :=
  let name := p.choose claimant preferred
  (name, { p with taken := name :: p.taken })

end NamePool

end ApiGraph.Generation
