import ApiGraph.Yaml.Lexer
import ApiGraph.Yaml.Node
import ApiGraph.Yaml.Scalar

/-!
# Reading YAML text

`Yaml.read?` reads a YAML text into a value.  Mappings become objects: their keys are scalars and
count as they are written, and of members with the same key the last counts, at the place of the
first.  A text without a document is null.

An alias gives the value of the node that it stands for.  How often aliases may be followed is
bounded by the size of the document, and collections may be nested only so deep, which also settles
aliases that lead to themselves.
-/

namespace ApiGraph.Yaml

/-- The collections that may be nested in a text. -/
def maxDepth : Nat := 128

/-- A document whose aliases can be looked up. -/
structure Anchors where
  /-- The nodes with anchors, in order. -/
  nodes : List (Nat × Node)
  /-- How often aliases may be followed. -/
  bound : Nat

namespace Anchors

/-- The anchors of a document. -/
def ofRoot (root : Node) : Anchors where
  nodes := root.anchored
  bound := 100 * root.events

/-- The last node with the anchor. -/
def find? (a : Anchors) (anchor : Nat) : Option Node :=
  a.nodes.reverse.lookup anchor

/-- The node that a node stands for; the state counts the aliases that were followed. -/
def follow (a : Anchors) (n : Node) : StateT Nat Option Node :=
  match n with
  | .alias anchor => fun count =>
    if count < a.bound then (a.find? anchor).map fun target => (target, count + 1) else none
  | n => pure n

/-- The key that a node is. -/
def key (a : Anchors) (n : Node) : StateT Nat Option String := do
  match ← a.follow n with
  | .scalar text _ _ _ => return String.ofList text
  | _ => fun _ => none

/-- The value of a node that may have collections nested `depth` deep. -/
def value (a : Anchors) : Nat → Node → StateT Nat Option Json
  | 0, n => do
    match ← a.follow n with
    | .scalar text plain tag _ => fun count => (scalarValue? text plain tag).map fun j => (j, count)
    | _ => fun _ => none
  | depth + 1, n => do
    match ← a.follow n with
    | .scalar text plain tag _ => fun count => (scalarValue? text plain tag).map fun j => (j, count)
    | .sequence items tag _ =>
      if isLocalTag tag then fun _ => none
      else return .array (← items.mapM (a.value depth))
    | .mapping members tag _ =>
      if isLocalTag tag then fun _ => none
      else
        let pairs ← members.mapM fun (k, v) => do return (← a.key k, ← a.value depth v)
        return .object (Dictionary.ofPairs pairs)
    | .alias _ => fun _ => none

end Anchors

/-- The value of a document. -/
def Node.value? (root : Node) : Option Json :=
  (((Anchors.ofRoot root).value maxDepth root).run 0).map (·.1)

/-- Read a YAML text. -/
def read? (s : String) : Option Json := do
  let tokens ← Token.ofText? s.toList
  match ← Node.ofTokens? tokens with
  | some root => root.value?
  | none => return .null

end ApiGraph.Yaml
