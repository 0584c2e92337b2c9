/-!
# Type references

The type of a field or an argument: a named type, or a list of a type, or a type that excludes
null.  Without that mark null is always a value.
-/

namespace ApiGraph.GraphQL

/-- A type as it is referred to. -/
inductive TypeRef where
  | named (name : String)
  | list (item : TypeRef)
  | nonNull (inner : TypeRef)
  deriving DecidableEq, Repr

namespace TypeRef

/-- The reference as it is written. -/
def text : TypeRef → List Char
  | .named name => name.toList
  | .list item => '[' :: item.text ++ [']']
  | .nonNull inner => inner.text ++ ['!']

/-- The named type at the bottom. -/
def leaf : TypeRef → String
  | .named name => name
  | .list item => item.leaf
  | .nonNull inner => inner.leaf

/-- The named type, if the reference excludes null and is no list. -/
def required? : TypeRef → Option String
  | .nonNull (.named name) => some name
  | _ => none

/-- Exclude null if `condition` holds; a type that already does so stays as it is. -/
def excludeNullIf (condition : Bool) : TypeRef → TypeRef
  | .nonNull inner => .nonNull inner
  | t => if condition then .nonNull t else t

end TypeRef

end ApiGraph.GraphQL
