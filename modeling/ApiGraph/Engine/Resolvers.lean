import ApiGraph.Engine.Draft
import ApiGraph.GraphQL.Sdl.Document

/-!
# Resolvers for a schema

The object types of a document that are called after a root get a resolver for all of their fields.
Only plain definitions count, extensions do not; a root that is defined several times has one
resolver, for the fields of all its definitions.

A field with arguments gets a configuration with all of them, and it gets one for every argument:
`n` equal configurations for `n` arguments.  They go to the first attribute that is meant for
arguments, which is looked up once for each root and document.
-/

namespace ApiGraph.Engine

open ApiGraph.GraphQL.Sdl (Definition FieldDefinition)

/-- Something for each root. -/
structure ByRoot (α : Type) where
  query : α
  mutation : α
  deriving DecidableEq, Repr

namespace ByRoot

/-- What the root has. -/
def get {α : Type} (p : ByRoot α) : Root → α
  | .query => p.query
  | .mutation => p.mutation

/-- Let the root have `a`. -/
def set {α : Type} (p : ByRoot α) (root : Root) (a : α) : ByRoot α :=
  match root with
  | .query => { p with query := a }
  | .mutation => { p with mutation := a }

@[simp] theorem get_set {α : Type} (p : ByRoot α) (root root' : Root) (a : α) :
    (p.set root a).get root' = if root' = root then a else p.get root' := by
  cases root <;> cases root' <;> rfl

end ByRoot

/-- A draft with the places of the attributes for arguments, as far as they have been looked up. -/
structure Filling where
  draft : Draft
  slots : ByRoot (Option Nat) := ⟨none, none⟩
  deriving DecidableEq, Repr

namespace Filling

/-- The place of the attribute for arguments of a root, and its resolver with that attribute. -/
def slot (f : Filling) (root : Root) (r : Resolver) : Nat × Resolver :=
  match f.slots.get root with
  | some index => (index, r)
  | none => r.argumentsSlot

/-- Add the configuration of a field once; an attribute that holds no arguments stays as it is. -/
def addConfig (f : Filling) (root : Root) (field : FieldDefinition) : Filling :=
  match f.draft.resolver? root with
  | none => f
  | some r =>
    let (index, r) := f.slot root r
    let config := Resolver.passOn field.name field.argumentNames
    { draft := f.draft.setResolver root ((r.addFieldConfig index config).getD r)
      slots := f.slots.set root (some index) }

/-- Add a field, and its configuration once for each argument. -/
def addField (f : Filling) (root : Root) (field : FieldDefinition) : Filling :=
  let f := { f with draft := f.draft.updateResolver root fun r => r.addField field.name }
  field.arguments.foldl (fun f _ => f.addConfig root field) f

/-- Take a definition in. -/
def addDefinition (dataSource : Nat) (url : String) (f : Filling) : Definition → Filling
  | .plain (.object name fields) =>
    match Root.ofName? name with
    | none => f
    | some root =>
      let f := { f with draft := f.draft.ensureResolver root dataSource url }
      fields.foldl (fun f field => f.addField root field) f
  | _ => f

end Filling

/-- Add the resolvers for a document to a draft. -/
def Draft.addResolvers (d : Draft) (document : GraphQL.Sdl.Document) (dataSource : Nat)
    (url : String) : Draft :=
  (document.foldl (Filling.addDefinition dataSource url) { draft := d }).draft

/-- The configuration for a document whose fields come from one data source. -/
def configurationFor (document : GraphQL.Sdl.Document) (name url : String)
    (headers : List (String × String)) : Configuration :=
  let (id, d) := Draft.addSource {} .graphql name url headers
  (d.addResolvers document id url).finish

end ApiGraph.Engine
