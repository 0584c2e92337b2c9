import ApiGraph.Proofs.Generation.Closed
import ApiGraph.Proofs.Generation.GivenNames
import ApiGraph.Proofs.Generation.Unfolding
import Mathlib.Data.List.Pairwise

/-!
# The schemas that types are made for

Every type that is registered stands in some place of the schema, and in all of these places there
is one and the same schema of the document: the object that the type has been made for.

* `exists_place_of_registered`: from the fields of the roots down, every type is found in a place.
* `Place.object`: the schema in this place is an object, and the type has a member for each of its
  visible properties.
* `Place.owner`: there is one such schema.
-/

namespace ApiGraph.Generation

open ApiGraph.GraphQL hiding Schema
open ApiGraph.OpenApi (RefOr Schema SchemaKind Components Endpoint)

/-! ## Names that fields use -/

/-- The field of an endpoint refers to the name. -/
def RootsUse (endpoints : List Endpoint) (roots : Roots) (position : Position) (name : String) :
    Prop :=
  ∃ e ∈ endpoints, ∃ f ∈ roots.fieldsFor e, f.name = e.fieldName ∧ FieldUses f position name

variable {c : Components} {endpoints : List Endpoint} {roots roots' : Roots} {r r' : Registry}

theorem MakesFields.builtFor (hmakes : MakesFields c roots endpoints r roots' r')
    (h : r.WellNamed) : Built c (RootsUse endpoints roots') r r' := by
  induction hmakes with
  | nil => exact .refl h
  | @cons roots _ e rest _ _ _ f hfield _ hrest ih =>
    obtain ⟨hbuilt, hfor⟩ := hfield.built h
    refine (hbuilt.mono fun p x huses => ?_).trans ((ih hbuilt.wellNamed).mono fun p x huses => ?_)
    · exact ⟨e, List.mem_cons_self .., f,
        hrest.fieldsFor_subset e (mem_fieldsFor_push roots e f), hfor.name, huses⟩
    · obtain ⟨e', he', huses⟩ := huses
      exact ⟨e', List.mem_cons_of_mem _ he', huses⟩

/-! ## The schema in a place -/

/-- What has a place is worked on. -/
theorem Place.exists_worksOn {schema : GraphQL.Schema} {position : Position} {a : RefOr Schema}
    {type : TypeRef} (h : Place c endpoints schema position a type) :
    ∃ e ∈ endpoints, ∃ root, WorksOn e position root ∧ Inside ⟨c, position⟩ root a := by
  induction h with
  | response he _ ha => exact ⟨_, he, _, .response ha, .refl _⟩
  | @argument e _ slot _ a he _ hslot ha =>
    obtain rfl : slot = some a := ha
    rcases List.mem_append.mp (List.of_mem_zip hslot).1 with hslot | hslot
    · obtain ⟨p, hp, hslot⟩ := List.mem_map.mp hslot
      exact ⟨e, he, a, .parameter hp hslot, .refl a⟩
    · obtain ⟨b, hb, heq⟩ := Option.map_eq_some_iff.mp (Option.mem_toList.mp hslot)
      obtain rfl := Option.some.inj heq
      exact ⟨e, he, _, .body hb, .refl _⟩
  | item _ hresolve hkind _ ih =>
    obtain ⟨e, he, root, hworks, hinside⟩ := ih
    exact ⟨e, he, root, hworks, hinside.trans (.item hresolve hkind (.refl _))⟩
  | member _ hresolve hkind _ hmember ih =>
    obtain ⟨e, he, root, hworks, hinside⟩ := ih
    have hp := (List.of_mem_zip hmember).1
    exact ⟨e, he, root, hworks, hinside.trans (.member hresolve hkind hp (.refl _))⟩

/-- A type that does not exclude null stands for itself or for the type that does. -/
theorem eq_or_eq_nonNull {made type : TypeRef} {condition : Bool}
    (hmade : made.excludesNull = false) (h : type = made.excludeNullIf condition) :
    type = made ∨ type = .nonNull made := by
  cases made with
  | nonNull inner => cases hmade
  | named name | list item =>
    cases condition with
    | false => exact Or.inl h
    | true => exact Or.inr h

theorem IsNamed.eq_of_excludeNullIf {made type : TypeRef} {condition : Bool} {name : String}
    (h : IsNamed type name) (hmade : made.excludesNull = false)
    (heq : type = made.excludeNullIf condition) : made = .named name := by
  rcases eq_or_eq_nonNull hmade heq with rfl | rfl
  · rcases h with rfl | rfl
    · rfl
    · cases hmade
  · rcases h with h | h
    · cases h
    · exact TypeRef.nonNull.inj h

/-- Only an array has a list for its type. -/
theorem TypeFor.exists_array {s : Setting} {a : RefOr Schema} {item : TypeRef}
    (h : TypeFor s r a (.list item)) (hdone : AllDone s.components r) :
    ∃ component resolved items, s.resolve a = .ok (component, resolved) ∧
      resolved.kind = .array (some items) := by
  have hobject : ∀ {properties required}, ¬ ObjectFor s r properties required (.list item) := by
    intro properties required hobject
    generalize htype : TypeRef.list item = type at hobject
    cases hobject <;> cases htype
  generalize htype : TypeRef.list item = type at h
  cases h with
  | array hresolve hkind => exact ⟨_, _, _, hresolve, hkind⟩
  | scalar | json => cases htype
  | component hresolve hkind hassigned =>
    subst htype
    exact absurd (hdone _ _ _ hassigned _ _ _ _ hresolve hkind) hobject
  | inlined hresolve hkind hfor =>
    subst htype
    exact absurd hfor hobject

/-! ## Objects -/

/-- What the schema comes to is an object with visible properties. -/
structure ObjectSchema (s : Setting) (a : RefOr Schema) where
  component : Option String
  resolved : Schema
  properties : List (String × RefOr Schema)
  required : List String
  resolve_eq : s.resolve a = .ok (component, resolved)
  kind_eq : resolved.kind = .object properties required
  visible_ne_nil : s.visible properties ≠ []

namespace ObjectSchema

variable {s : Setting} {a : RefOr Schema}

/-- The properties that are not left out of types. -/
def visible (o : ObjectSchema s a) : List (String × RefOr Schema) :=
  s.visible o.properties

/-- A schema comes to one object. -/
instance : Subsingleton (ObjectSchema s a) := by
  refine ⟨fun o o' => ?_⟩
  obtain ⟨component, resolved, properties, required, hresolve, hkind, hvisible⟩ := o
  obtain ⟨component', resolved', properties', required', hresolve', hkind', hvisible'⟩ := o'
  obtain ⟨rfl, rfl⟩ := Prod.mk.inj (Except.ok.inj (hresolve.symm.trans hresolve'))
  obtain ⟨rfl, rfl⟩ := SchemaKind.object.inj (hkind.symm.trans hkind')
  rfl

/-- The type is registered, and it has a member for each visible property. -/
structure IsMade (o : ObjectSchema s a) (r : Registry) (t : Composite) : Prop where
  registered : r.registered? s.position t.name = some (some t)
  members : MembersFor s r o.required o.visible t.members

theorem IsMade.eq_of_registered {o : ObjectSchema s a} {r : Registry} {t t' : Composite}
    (h : o.IsMade r t) (hname : t.name = t'.name)
    (h' : r.registered? s.position t'.name = some (some t')) : t = t' := by
  have hregistered := h.registered
  rw [hname] at hregistered
  exact Option.some.inj (Option.some.inj (hregistered.symm.trans h'))

end ObjectSchema

theorem mem_builtinScalars_of_mem_scalarNames {name : String} (h : name ∈ scalarNames) :
    name ∈ builtinScalars := by
  have hall : ∀ name ∈ scalarNames, name ∈ builtinScalars := by decide
  exact hall name h

section Runs

variable {components : List String}
  (hmakes : MakesFields c {} endpoints (.start components) roots r)
include hmakes

theorem Place.exists_item {position : Position} {a : RefOr Schema} {type item : TypeRef}
    (h : Place c endpoints (assemble roots r) position a type)
    (htype : type = .list item ∨ type = .nonNull (.list item)) :
    ∃ items, Place c endpoints (assemble roots r) position items item := by
  obtain ⟨made, condition, heq, hmade⟩ := h.typeFor hmakes
  have hlist : made = .list item := by
    have hnull := hmade.nullable hmakes.allDone
    rcases eq_or_eq_nonNull hnull heq with rfl | rfl
    · rcases htype with rfl | rfl
      · rfl
      · cases hnull
    · rcases htype with htype | htype
      · cases htype
      · exact TypeRef.nonNull.inj htype
  subst hlist
  obtain ⟨_, _, items, hresolve, hkind⟩ := hmade.exists_array hmakes.allDone
  exact ⟨items, .item h hresolve hkind htype⟩

/-- Down a list there is a place for the named type at the bottom. -/
theorem Place.exists_named {position : Position} {a : RefOr Schema} {type : TypeRef}
    (h : Place c endpoints (assemble roots r) position a type) :
    ∃ b named, Place c endpoints (assemble roots r) position b named ∧ IsNamed named type.leaf := by
  -- Null may be excluded on every level, so the induction goes over both forms of a type.
  have hboth : ∀ a, Place c endpoints (assemble roots r) position a type ∨
      Place c endpoints (assemble roots r) position a (.nonNull type) →
        ∃ b named, Place c endpoints (assemble roots r) position b named ∧
          IsNamed named type.leaf := by
    clear h
    induction type with
    | named name =>
      rintro a (h | h)
      · exact ⟨a, _, h, Or.inl rfl⟩
      · exact ⟨a, _, h, Or.inr rfl⟩
    | list item ih =>
      rintro a (h | h)
      · obtain ⟨items, hitems⟩ := h.exists_item hmakes (Or.inl rfl)
        exact ih items (Or.inl hitems)
      · obtain ⟨items, hitems⟩ := h.exists_item hmakes (Or.inr rfl)
        exact ih items (Or.inl hitems)
    | nonNull inner ih =>
      rintro a (h | h)
      · exact ih a (Or.inr h)
      · obtain ⟨made, condition, heq, hmade⟩ := h.typeFor hmakes
        have hnull := hmade.nullable hmakes.allDone
        rcases eq_or_eq_nonNull hnull heq with rfl | heq
        · cases hnull
        · rw [← TypeRef.nonNull.inj heq] at hnull
          cases hnull
  exact hboth a (Or.inl h)

/-- A type has been made for an object that has a place. -/
theorem ObjectSchema.exists_isMade {position : Position} {a : RefOr Schema} {type : TypeRef}
    (o : ObjectSchema ⟨c, position⟩ a)
    (hplace : Place c endpoints (assemble roots r) position a type) :
    ∃ t, IsNamed type t.name ∧ o.IsMade r t := by
  obtain ⟨made, condition, rfl, hmade⟩ := hplace.typeFor hmakes
  cases hmade.of_object hmakes.allDone o.resolve_eq o.kind_eq with
  | hidden hnone => exact absurd hnone o.visible_ne_nil
  | @shown _ _ t _ hregistered hmembers =>
    exact ⟨t, isNamed_excludeNullIf .., hregistered, hmembers⟩

/-- The schema in a place of a registered type is the object that the type has been made for. -/
theorem Place.object {position : Position} {a : RefOr Schema} {type : TypeRef} {name : String}
    (h : Place c endpoints (assemble roots r) position a type) (hnamed : IsNamed type name)
    (hname : name ∈ r.finishedNames position) (hscalar : name ∉ scalarNames) :
    ∃ (o : ObjectSchema ⟨c, position⟩ a) (t : Composite), t.name = name ∧ o.IsMade r t := by
  have hdone := hmakes.allDone
  have hjson : name ≠ jsonName := by
    rintro rfl
    exact (sound_of_makesFields hmakes).1.not_mem_fixedNames hname (by decide)
  obtain ⟨made, condition, heq, hmade⟩ := h.typeFor hmakes
  obtain rfl := hnamed.eq_of_excludeNullIf (hmade.nullable hdone) heq
  have hobject : ∃ component resolved properties required,
      Setting.resolve ⟨c, position⟩ a = .ok (component, resolved) ∧
        resolved.kind = .object properties required := by
    generalize htype : TypeRef.named name = made at hmade
    cases hmade with
    | scalar _ hkind =>
      cases htype
      exact absurd (mem_scalarNames_of_scalarName? hkind) hscalar
    | json => exact absurd (TypeRef.named.inj htype) hjson
    | array => cases htype
    | component hresolve hkind _ => exact ⟨_, _, _, _, hresolve, hkind⟩
    | inlined hresolve hkind _ => exact ⟨_, _, _, _, hresolve, hkind⟩
  obtain ⟨component, resolved, properties, required, hresolve, hkind⟩ := hobject
  have hvisible : Setting.visible ⟨c, position⟩ properties ≠ [] := by
    intro hnone
    generalize htype : TypeRef.named name = made at hmade
    cases hmade.of_object hdone hresolve hkind with
    | hidden => exact hjson (TypeRef.named.inj htype)
    | shown hsome => exact hsome hnone
  let o : ObjectSchema ⟨c, position⟩ a :=
    ⟨component, resolved, properties, required, hresolve, hkind, hvisible⟩
  obtain ⟨t, hnamed', ht⟩ := o.exists_isMade hmakes h
  exact ⟨o, t, hnamed'.leaf.symm.trans hnamed.leaf, ht⟩

omit hmakes in
/-- The properties of an object are in the places of its members. -/
theorem Place.member_of_isMade {position : Position} {a : RefOr Schema} {type : TypeRef}
    {o : ObjectSchema ⟨c, position⟩ a} {t : Composite} {p : String × RefOr Schema} {m : InputValue}
    (h : Place c endpoints (assemble roots r) position a type) (hnamed : IsNamed type t.name)
    (ht : o.IsMade r t) (hmember : (p, m) ∈ o.visible.zip t.members) :
    Place c endpoints (assemble roots r) position p.2 m.type := by
  have hmembers : (type.leaf, t.memberTypes) ∈ typesIn (assemble roots r) position := by
    rw [hnamed.leaf]
    exact mem_typesIn_assemble roots ht.registered
  have hzip : (p, (m.name, m.type)) ∈
      (Setting.visible ⟨c, position⟩ o.properties).zip t.memberTypes :=
    mem_zip_memberTypes.mpr ⟨p, m, hmember, rfl⟩
  exact Place.member h o.resolve_eq o.kind_eq hmembers hzip

/-! ## Every type has a place -/

theorem exists_place_of_optionalType {position : Position} {slot : Option (RefOr Schema)}
    {type : TypeRef} {name : String} (hfor : OptionalTypeFor ⟨c, position⟩ r slot type)
    (hleaf : type.leaf = name) (hscalar : name ∉ scalarNames)
    (hplace : ∀ a ∈ slot, ∃ type', type'.leaf = name ∧
      Place c endpoints (assemble roots r) position a type') :
    ∃ a named, Place c endpoints (assemble roots r) position a named ∧ IsNamed named name := by
  cases slot with
  | none =>
    obtain rfl : type = .named "String" := hfor
    exact absurd (hleaf ▸ List.mem_cons_self ..) hscalar
  | some a =>
    obtain ⟨type', rfl, h⟩ := hplace a rfl
    exact h.exists_named hmakes

theorem exists_place_of_rootsUse {position : Position} {name : String}
    (huses : RootsUse endpoints roots position name) (hscalar : name ∉ scalarNames) :
    ∃ a named, Place c endpoints (assemble roots r) position a named ∧ IsNamed named name := by
  obtain ⟨e, he, f, hf, hname, huses⟩ := huses
  have hfield : IsFieldOf (assemble roots r) e f :=
    ⟨_, rootObject_mem (List.ne_nil_of_mem hf), rfl, hf, hname⟩
  have hfor := hmakes.fieldFor he hfield
  rcases huses with ⟨rfl, type, htype, hleaf⟩ | ⟨rfl, type, htype, hleaf⟩
  · obtain rfl := List.mem_singleton.mp htype
    exact exists_place_of_optionalType hmakes hfor.type hleaf hscalar fun a ha =>
      ⟨f.type, hleaf, .response he hfield ha⟩
  · obtain ⟨argument, hargument, rfl⟩ := List.mem_map.mp htype
    obtain ⟨slot, hzip⟩ := exists_zip_of_mem hfor.arguments hargument
    obtain ⟨made, condition, heq, hmade⟩ := List.forall₂_zip hfor.arguments hzip
    refine exists_place_of_optionalType hmakes hmade ?_ hscalar fun a ha =>
      ⟨argument.type, hleaf, .argument he hfield hzip ha⟩
    rw [← hleaf, heq, leaf_excludeNullIf]

/-- Every registered type has a place, unless types are called like scalars. -/
theorem MakesFields.exists_place_of_registered {position : Position}
    (hscalars : ∀ name ∈ r.finishedNames position, name ∉ scalarNames) {name : String}
    (hname : name ∈ r.finishedNames position) :
    ∃ a type, Place c endpoints (assemble roots r) position a type ∧ IsNamed type name := by
  obtain ⟨e, he⟩ := (wellNamed_of_makesFields hmakes).exists_registered? hname
  have hused : Used (RootsUse endpoints roots) r position name := by
    obtain ⟨-, -, -, hused⟩ :=
      (hmakes.builtFor (.start components)).made_of_mem (Dictionary.mem_of_get? he)
    exact hused
  obtain ⟨root, huses, hreaches⟩ := hused
  clear he
  -- All on the way from the root down is registered.
  induction hreaches with
  | refl => exact exists_place_of_rootsUse hmakes huses (hscalars _ hname)
  | @tail owner _ _ hstep ih =>
    obtain ⟨t, ht, m, hm, rfl⟩ := hstep
    have howner : t.name = owner :=
      (wellNamed_of_makesFields hmakes).name position _ (Dictionary.mem_of_get? ht) t rfl
    subst howner
    have hfinished : t.name ∈ r.finishedNames position :=
      List.mem_map_of_mem (mem_finished_of_registered? ht)
    obtain ⟨a, type, hplace, hnamed⟩ := ih hfinished
    obtain ⟨o, t', hname', ht'⟩ := hplace.object hmakes hnamed hfinished (hscalars _ hfinished)
    obtain rfl := ht'.eq_of_registered hname' ht
    obtain ⟨p, hp⟩ := exists_zip_of_mem ht'.members.forall₂ hm
    exact (hplace.member_of_isMade hnamed ht' hp).exists_named hmakes

end Runs

/-! ## Every type has one owner -/

theorem eq_of_componentName? {kind target name : String}
    (h : OpenApi.componentName? kind target = some name) :
    target = "#/components/" ++ kind ++ "/" ++ name := by
  obtain ⟨rest, hrest, rfl⟩ := Option.map_eq_some_iff.mp h
  rw [← String.toList_inj, String.toList_append, String.toList_ofList]
  exact (List.append_eq_of_isPrefixOf?_eq_some hrest).symm

/-- There is one way to refer to a component. -/
theorem eq_reference_of_refersTo {s : Setting} {a : RefOr Schema} {name : String}
    (h : s.RefersTo a name) : a = .reference ("#/components/" ++ "schemas" ++ "/" ++ name) := by
  obtain ⟨value, hresolve⟩ := h
  have hfound := mapError_eq_ok.mp hresolve
  cases a with
  | item value => cases hfound
  | reference target =>
    obtain ⟨⟨name', value⟩, hlookUp, heq⟩ := map_eq_ok.mp hfound
    obtain ⟨hname, rfl⟩ := Prod.mk.inj heq
    obtain rfl := Option.some.inj hname
    unfold OpenApi.Components.schema OpenApi.lookUp at hlookUp
    split at hlookUp
    · cases hlookUp
    · rename_i hk
      split at hlookUp
      · cases hlookUp
      · cases hlookUp
      · obtain ⟨rfl, rfl⟩ := Prod.mk.inj (Except.ok.inj hlookUp)
        rw [← eq_of_componentName? hk]

namespace ObjectSchema

variable {s : Setting} {a : RefOr Schema}

theorem endsInline (o : ObjectSchema s a) (h : o.component = none) : EndsInline s a :=
  .object (h ▸ o.resolve_eq) o.kind_eq o.visible_ne_nil

theorem refersTo (o : ObjectSchema s a) {name : String} (h : o.component = some name) :
    s.RefersTo a name :=
  ⟨o.resolved, h ▸ o.resolve_eq⟩

/-- A component was given the name of its type. -/
theorem gave_of_component {position : Position} {type : TypeRef} {component name : String}
    (hmakes : MakesFields c {} endpoints (.start c.schemas.keys) roots r)
    (o : ObjectSchema ⟨c, position⟩ a) (hcomponent : o.component = some component)
    (hplace : Place c endpoints (assemble roots r) position a type) (hnamed : IsNamed type name) :
    r.Gave position component name := by
  obtain ⟨own, hgave, htype⟩ := hmakes.exists_typeNamed hplace (hcomponent ▸ o.resolve_eq)
    o.kind_eq o.visible_ne_nil
  rw [← hnamed.leaf, (htype.places a type (o.refersTo hcomponent) hplace).leaf]
  exact hgave

end ObjectSchema

section Runs

variable (h : rootFields c {} endpoints (.start c.schemas.keys) = .ok (roots, r))
include h

/-- A name that a component was given is not that of a type for an object that is none. -/
theorem not_gave_of_inlined {position : Position} {a : RefOr Schema} {type : TypeRef}
    {name : String} (hplace : Place c endpoints (assemble roots r) position a type)
    (hnamed : IsNamed type name) (hends : EndsInline ⟨c, position⟩ a) (component : String) :
    ¬ r.Gave position component name := by
  obtain ⟨made, condition, hmem, rfl⟩ := (lists_of_place h hplace).exists_mem
  rw [← hnamed.leaf, leaf_excludeNullIf]
  exact ((unclaimed_translationsFor h).listed _ hmem hends).2 position component

/-- Of two objects that are no components, only equal ones are in places of the same type. -/
theorem eq_of_inlined {position : Position} {a b : RefOr Schema} {type type' : TypeRef}
    {name : String} (ha : Place c endpoints (assemble roots r) position a type)
    (hb : Place c endpoints (assemble roots r) position b type') (hnamed : IsNamed type name)
    (hnamed' : IsNamed type' name) (hends : EndsInline ⟨c, position⟩ a)
    (hends' : EndsInline ⟨c, position⟩ b) : a = b := by
  have hdone := (makes_of_rootFields h).allDone
  obtain ⟨_, _, hrecords, -⟩ := exists_records h
  have hlisted : ∀ {a type}, Place c endpoints (assemble roots r) position a type →
      IsNamed type name → ⟨position, a, .named name⟩ ∈ translationsFor c endpoints := by
    intro a type hplace hnamed
    obtain ⟨made, condition, hmem, heq⟩ := (lists_of_place h hplace).exists_mem
    rw [← hnamed.eq_of_excludeNullIf ((hrecords.stands _ hmem).nullable hdone) heq]
    exact hmem
  by_contra hne
  have hsymm : Std.Symm fun x y : Translation =>
      x.EndsInline c → y.EndsInline c → x.type ≠ y.type :=
    ⟨fun _ _ hapart hy hx heq => hapart hx hy heq.symm⟩
  refine hrecords.apart.forall (hlisted ha hnamed) (hlisted hb hnamed') (fun heq => ?_)
    hends hends' rfl
  exact hne (Translation.mk.inj heq).2.1

/-- All places of a type hold the same schema. -/
theorem Place.owner {position : Position} {a b : RefOr Schema} {type type' : TypeRef}
    {name : String} (ha : Place c endpoints (assemble roots r) position a type)
    (hb : Place c endpoints (assemble roots r) position b type') (hnamed : IsNamed type name)
    (hnamed' : IsNamed type' name) (hname : name ∈ r.finishedNames position)
    (hscalar : name ∉ scalarNames) : a = b := by
  have hmakes := makes_of_rootFields h
  obtain ⟨o, -⟩ := ha.object hmakes hnamed hname hscalar
  obtain ⟨o', -⟩ := hb.object hmakes hnamed' hname hscalar
  cases hcomponent : o.component with
  | none =>
    have hends := o.endsInline hcomponent
    cases hcomponent' : o'.component with
    | none => exact eq_of_inlined h ha hb hnamed hnamed' hends (o'.endsInline hcomponent')
    | some k =>
      exact absurd (o'.gave_of_component hmakes hcomponent' hb hnamed')
        (not_gave_of_inlined h ha hnamed hends k)
  | some k =>
    have hgave := o.gave_of_component hmakes hcomponent ha hnamed
    cases hcomponent' : o'.component with
    | none =>
      exact absurd hgave (not_gave_of_inlined h hb hnamed' (o'.endsInline hcomponent') k)
    | some k' =>
      obtain ⟨-, rfl⟩ := hmakes.credited.owner name position k position k' hgave
        (o'.gave_of_component hmakes hcomponent' hb hnamed')
      exact (eq_reference_of_refersTo (o.refersTo hcomponent)).trans
        (eq_reference_of_refersTo (o'.refersTo hcomponent')).symm

end Runs

end ApiGraph.Generation
