import ApiGraph.Proofs.Generation.Places

/-!
# Schemas that end inline

Under the arrays of a schema there may be an object that is no component, right there or behind
references to further arrays.  Such a schema ends inline.  All other schemas have one type at most
in a registry whose components are done: at the bottom of their arrays there is a scalar, a
component that has its type, or something that is `JSON`.

* `EndsInline.of_refersTo`: it does not matter how a component is referred to.
* `TypeFor.unique`: two types for a schema are the same, unless it ends inline.
-/

namespace ApiGraph.Generation

open ApiGraph.GraphQL hiding Schema
open ApiGraph.OpenApi (RefOr Schema SchemaKind)

/-- At the bottom of arrays there is an object that is no component and has members. -/
inductive EndsInline (s : Setting) : RefOr Schema → Prop
  | object {a : RefOr Schema} {resolved : Schema} {properties : List (String × RefOr Schema)}
      {required : List String} (hresolve : s.resolve a = .ok (none, resolved))
      (hkind : resolved.kind = .object properties required)
      (hvisible : s.visible properties ≠ []) : EndsInline s a
  | item {a items : RefOr Schema} {component : Option String} {resolved : Schema}
      (hresolve : s.resolve a = .ok (component, resolved))
      (hkind : resolved.kind = .array (some items)) (hitems : EndsInline s items) : EndsInline s a

variable {s : Setting} {a b : RefOr Schema} {component : Option String} {resolved : Schema}

theorem EndsInline.cases_of_resolve (h : EndsInline s a)
    (hresolve : s.resolve a = .ok (component, resolved)) :
    (component = none ∧ ∃ properties required, resolved.kind = .object properties required ∧
      s.visible properties ≠ []) ∨
      ∃ items, resolved.kind = .array (some items) ∧ EndsInline s items := by
  cases h with
  | object hresolve' hkind hvisible =>
    obtain ⟨rfl, rfl⟩ := Prod.mk.inj (Except.ok.inj (hresolve.symm.trans hresolve'))
    exact Or.inl ⟨rfl, _, _, hkind, hvisible⟩
  | item hresolve' hkind hitems =>
    obtain ⟨-, rfl⟩ := Prod.mk.inj (Except.ok.inj (hresolve.symm.trans hresolve'))
    exact Or.inr ⟨_, hkind, hitems⟩

/-- Whether a component ends inline does not depend on the reference to it. -/
theorem EndsInline.of_refersTo {name : String} (h : EndsInline s a) (ha : s.RefersTo a name)
    (hb : s.RefersTo b name) : EndsInline s b := by
  have hsame := resolve_eq_of_refersTo ha hb
  cases h with
  | object hresolve hkind hvisible => exact .object (hsame ▸ hresolve) hkind hvisible
  | item hresolve hkind hitems => exact .item (hsame ▸ hresolve) hkind hitems

/-! ## Scalars, and schemas without a known shape -/

section Leaves

variable (hleaf : (∃ name, scalarName? resolved.kind = some name) ∨
  isShapeless resolved.kind = true)
include hleaf

theorem kind_ne_array_of_leaf (items : Option (RefOr Schema)) : resolved.kind ≠ .array items := by
  intro hkind
  rw [hkind] at hleaf
  rcases hleaf with ⟨_, hname⟩ | hshapeless
  · exact nomatch hname
  · exact nomatch hshapeless

theorem visible_of_leaf {properties : List (String × RefOr Schema)} {required : List String}
    (hkind : resolved.kind = .object properties required) : s.visible properties = [] := by
  rw [hkind] at hleaf
  rcases hleaf with ⟨_, hname⟩ | hshapeless
  · exact nomatch hname
  · rw [List.isEmpty_iff.mp hshapeless]
    rfl

theorem not_endsInline_of_leaf (hresolve : s.resolve a = .ok (component, resolved)) :
    ¬ EndsInline s a := by
  intro hends
  rcases hends.cases_of_resolve hresolve with ⟨-, _, _, hkind, hvisible⟩ | ⟨items, hkind, -⟩
  · exact hvisible (visible_of_leaf hleaf hkind)
  · exact kind_ne_array_of_leaf hleaf _ hkind

end Leaves

/-! ## Types for a schema -/

section Types

variable {r : Registry} {type type' : TypeRef} {properties : List (String × RefOr Schema)}
  {required : List String}

theorem TypeFor.eq_of_scalar {name : String} (h : TypeFor s r a type)
    (hresolve : s.resolve a = .ok (component, resolved))
    (hkind : scalarName? resolved.kind = some name) : type = .named name := by
  rcases h.cases_of_resolve hresolve with ⟨name', hname, rfl⟩ | ⟨hshapeless, -⟩ |
    ⟨_, _, _, harray, -⟩ | ⟨_, _, hobject, -⟩
  · rw [Option.some.inj (hname.symm.trans hkind)]
  · cases hk : resolved.kind with
    | any | object _ _ =>
      rw [hk] at hkind
      exact nomatch hkind
    | string | integer | number | boolean | array _ =>
      rw [hk] at hshapeless
      exact nomatch hshapeless
  · exact absurd harray (kind_ne_array_of_leaf (Or.inl ⟨name, hkind⟩) _)
  · rw [hobject] at hkind
    exact nomatch hkind

theorem TypeFor.eq_of_array {items : RefOr Schema} {itemComponent : Option String}
    {resolvedItem : Schema} (h : TypeFor s r a type)
    (hresolve : s.resolve a = .ok (component, resolved))
    (hkind : resolved.kind = .array (some items))
    (hitems : s.resolve items = .ok (itemComponent, resolvedItem)) :
    ∃ item, TypeFor s r items item ∧
      type = .list (item.excludeNullIf !resolvedItem.data.nullable) := by
  cases h with
  | array hresolve' hkind' hitem hitems' =>
    obtain ⟨-, rfl⟩ := Prod.mk.inj (Except.ok.inj (hresolve.symm.trans hresolve'))
    obtain rfl := Option.some.inj (SchemaKind.array.inj (hkind.symm.trans hkind'))
    obtain ⟨-, rfl⟩ := Prod.mk.inj (Except.ok.inj (hitems.symm.trans hitems'))
    exact ⟨_, hitem, rfl⟩
  | scalar hresolve' hkind' | json hresolve' hkind' _ =>
    obtain ⟨-, rfl⟩ := Prod.mk.inj (Except.ok.inj (hresolve.symm.trans hresolve'))
    rw [hkind] at hkind'
    exact nomatch hkind'
  | component hresolve' hkind' _ | inlined hresolve' hkind' _ =>
    obtain ⟨-, rfl⟩ := Prod.mk.inj (Except.ok.inj (hresolve.symm.trans hresolve'))
    exact nomatch hkind.symm.trans hkind'

theorem TypeFor.eq_of_object (h : TypeFor s r a type) (h' : TypeFor s r a type')
    (hdone : AllDone s.components r) (hresolve : s.resolve a = .ok (component, resolved))
    (hkind : resolved.kind = .object properties required) (hnot : ¬ EndsInline s a) :
    type = type' := by
  by_cases hvisible : s.visible properties = []
  · have hjson : ∀ {t}, TypeFor s r a t → t = jsonType := by
      intro t ht
      cases ht.of_object hdone hresolve hkind with
      | hidden => rfl
      | shown hsome => exact absurd hvisible hsome
    rw [hjson h, hjson h']
  · cases component with
    | none => exact absurd (.object hresolve hkind hvisible) hnot
    | some name =>
      have hassigned := h.assigned hresolve hkind hvisible
      exact Option.some.inj (hassigned.symm.trans (h'.assigned hresolve hkind hvisible))

theorem TypeFor.of_resolve_eq (h : TypeFor s r b type) (hsame : s.resolve a = s.resolve b) :
    TypeFor s r a type := by
  cases h with
  | scalar hresolve hkind => exact .scalar (hsame.trans hresolve) hkind
  | json hresolve hkind huses => exact .json (hsame.trans hresolve) hkind huses
  | array hresolve hkind hitem hitems => exact .array (hsame.trans hresolve) hkind hitem hitems
  | component hresolve hkind hassigned =>
    exact .component (hsame.trans hresolve) hkind hassigned
  | inlined hresolve hkind hobject => exact .inlined (hsame.trans hresolve) hkind hobject

theorem TypeFor.eq_of_json (h : TypeFor s r a type) (hdone : AllDone s.components r)
    (hresolve : s.resolve a = .ok (component, resolved))
    (hkind : isShapeless resolved.kind = true) (huses : r.usesJson = true)
    (hnot : ¬ EndsInline s a) : jsonType = type := by
  have hjson : TypeFor s r a jsonType := .json hresolve hkind huses
  rcases h.cases_of_resolve hresolve with ⟨_, hname, -⟩ | ⟨-, -, rfl⟩ |
    ⟨_, _, _, harray, -⟩ | ⟨_, _, hobject, -⟩
  · rw [h.eq_of_scalar hresolve hname, ← hjson.eq_of_scalar hresolve hname]
  · rfl
  · exact absurd harray (kind_ne_array_of_leaf (Or.inr hkind) _)
  · exact hjson.eq_of_object h hdone hresolve hobject hnot

/-- If there is one type for the items, there is one for the array. -/
theorem TypeFor.eq_of_items {items : RefOr Schema} {itemComponent : Option String}
    {resolvedItem : Schema} {item : TypeRef} (h : TypeFor s r a type)
    (hresolve : s.resolve a = .ok (component, resolved))
    (hkind : resolved.kind = .array (some items))
    (hitems : s.resolve items = .ok (itemComponent, resolvedItem))
    (hunique : ∀ item', TypeFor s r items item' → item = item') :
    .list (item.excludeNullIf !resolvedItem.data.nullable) = type := by
  obtain ⟨item', hitem', rfl⟩ := h.eq_of_array hresolve hkind hitems
  rw [hunique item' hitem']

/-- A schema that does not end inline has one type at most. -/
theorem TypeFor.unique {a : RefOr Schema} {type type' : TypeRef} (h : TypeFor s r a type)
    (h' : TypeFor s r a type') (hdone : AllDone s.components r) (hnot : ¬ EndsInline s a) :
    type = type' :=
  match h with
  | .array hresolve hkind hitem hitems =>
    h'.eq_of_items hresolve hkind hitems fun _ hitem' =>
      hitem.unique hitem' hdone fun hends => hnot (.item hresolve hkind hends)
  | .scalar hresolve hkind => (h'.eq_of_scalar hresolve hkind).symm
  | .json hresolve hkind huses => h'.eq_of_json hdone hresolve hkind huses hnot
  | .component hresolve hkind hassigned =>
    TypeFor.eq_of_object (.component hresolve hkind hassigned) h' hdone hresolve hkind hnot
  | .inlined hresolve hkind hobject =>
    TypeFor.eq_of_object (.inlined hresolve hkind hobject) h' hdone hresolve hkind hnot

end Types

end ApiGraph.Generation
