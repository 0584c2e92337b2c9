import ApiGraph.Engine.Configuration

/-!
# Configurations under construction

A draft collects data sources, which are known by their place, and at most one resolver for each
root.  A resolver that exists is never replaced.
-/

namespace ApiGraph.Engine

/-- A configuration to which data sources and resolvers can be added. -/
structure Draft where
  dataSources : List DataSource := []
  query : Option Resolver := none
  mutation : Option Resolver := none
  mappings : List Mapping := []
  deriving DecidableEq, Repr

namespace Draft

/-- Add a data source; the first result is its place. -/
def addSource (d : Draft) (kind : SourceKind) (name url : String)
    (headers : List (String × String)) : Nat × Draft :=
  (d.dataSources.length,
    { d with dataSources := d.dataSources ++ [.at kind name url headers] })

/-- The data source at a place. -/
def source? (d : Draft) (id : Nat) : Option DataSource :=
  d.dataSources[id]?

/-- The resolver of a root. -/
def resolver? (d : Draft) : Root → Option Resolver
  | .query => d.query
  | .mutation => d.mutation

/-- Make `r` the resolver of a root. -/
def setResolver (d : Draft) (root : Root) (r : Resolver) : Draft :=
  match root with
  | .query => { d with query := some r }
  | .mutation => { d with mutation := some r }

/-- Give the root a resolver unless it has one. -/
def ensureResolver (d : Draft) (root : Root) (dataSource : Nat) (url : String) : Draft :=
  match d.resolver? root with
  | some _ => d
  | none => d.setResolver root (.empty root.name dataSource url)

/-- Change the resolver of a root, if there is one. -/
def updateResolver (d : Draft) (root : Root) (f : Resolver → Resolver) : Draft :=
  match d.resolver? root with
  | some r => d.setResolver root (f r)
  | none => d

/-- The finished configuration. -/
def finish (d : Draft) : Configuration :=
  { dataSources := d.dataSources
    resolvers := Root.all.filterMap d.resolver?
    mappings := d.mappings }

@[simp] theorem resolver?_setResolver (d : Draft) (root : Root) (r : Resolver) (root' : Root) :
    (d.setResolver root r).resolver? root' =
      if root' = root then some r else d.resolver? root' := by
  cases root <;> cases root' <;> rfl

theorem resolver?_updateResolver (d : Draft) (root : Root) (change : Resolver → Resolver)
    (other : Root) :
    (d.updateResolver root change).resolver? other =
      if other = root then (d.resolver? root).map change else d.resolver? other := by
  rw [updateResolver]
  cases hr : d.resolver? root with
  | none =>
    by_cases heq : other = root
    · rw [if_pos heq, heq, hr, Option.map_none]
    · rw [if_neg heq]
  | some r => rw [resolver?_setResolver, Option.map_some]

theorem resolver?_ensureResolver (d : Draft) (root : Root) (dataSource : Nat) (url : String)
    (other : Root) :
    (d.ensureResolver root dataSource url).resolver? other =
      if other = root then (d.resolver? root).or (some (.empty root.name dataSource url))
      else d.resolver? other := by
  rw [ensureResolver]
  cases hr : d.resolver? root with
  | none => rw [resolver?_setResolver, Option.none_or]
  | some r =>
    by_cases heq : other = root
    · rw [if_pos heq, heq, hr, Option.some_or]
    · rw [if_neg heq]

@[simp] theorem dataSources_setResolver (d : Draft) (root : Root) (r : Resolver) :
    (d.setResolver root r).dataSources = d.dataSources := by
  cases root <;> rfl

@[simp] theorem mappings_setResolver (d : Draft) (root : Root) (r : Resolver) :
    (d.setResolver root r).mappings = d.mappings := by
  cases root <;> rfl

end Draft

end ApiGraph.Engine
