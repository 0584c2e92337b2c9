import ApiGraph.Engine.Resolvers

/-!
# Histories of a draft

A draft is built by operations in any order: data sources are created, roots get resolvers, documents
are walked, and the resolvers that are there are extended by hand.  What is meant for a resolver that
is not there does nothing.
-/

namespace ApiGraph.Engine

open ApiGraph.GraphQL.Sdl (Document)

namespace Draft

/-- What can be done with a draft. -/
inductive Operation where
  /-- Create a data source. -/
  | addSource (kind : SourceKind) (name url : String) (headers : List (String × String))
  /-- Give a root a resolver unless it has one. -/
  | ensureResolver (root : Root) (dataSource : Nat) (url : String)
  /-- Add the resolvers for a document. -/
  | addResolvers (document : Document) (dataSource : Nat) (url : String)
  /-- Let a resolver resolve one more field. -/
  | addField (root : Root) (fieldName : String)
  /-- Look for the attribute for arguments of a resolver, which is made if there is none. -/
  | openArguments (root : Root)
  /-- Add the arguments of a field to the attribute of a resolver at a place. -/
  | addFieldConfig (root : Root) (index : Nat) (fieldName : String) (argumentNames : List String)

/-- The draft after an operation. -/
def apply (d : Draft) : Operation → Draft
  | .addSource kind name url headers => (d.addSource kind name url headers).2
  | .ensureResolver root dataSource url => d.ensureResolver root dataSource url
  | .addResolvers document dataSource url => d.addResolvers document dataSource url
  | .addField root fieldName => d.updateResolver root fun r => r.addField fieldName
  | .openArguments root => d.updateResolver root fun r => r.argumentsSlot.2
  | .addFieldConfig root index fieldName argumentNames =>
    d.updateResolver root fun r =>
      (r.addFieldConfig index (Resolver.passOn fieldName argumentNames)).getD r

/-- The draft after operations on a new one. -/
def after (ops : List Operation) : Draft :=
  ops.foldl apply {}

end Draft

end ApiGraph.Engine
