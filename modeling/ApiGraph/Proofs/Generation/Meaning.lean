import ApiGraph.Proofs.Generation.Collisions
import ApiGraph.Proofs.Generation.Frame
import ApiGraph.Proofs.Sdl.Printable

/-!
# What types stand for

`TypeFor s r a type` says that `type` is a type for the schema, as the registry has it: a list of
types for the items, the type that a component got, or a registered type with one member for each
visible property.  It looks through objects that are no components, and stops at components, which
may be under construction: `ComponentDone` says of one that what it got is a type for its
properties.

All of this is about finished types, so it stays true when the registry grows (`TypeFor.mono`).
-/

namespace ApiGraph.Generation

open ApiGraph.GraphQL hiding Schema
open ApiGraph.OpenApi (RefOr Schema SchemaKind Components)

mutual

inductive TypeFor (s : Setting) (r : Registry) : RefOr Schema → TypeRef → Prop
  | scalar {a : RefOr Schema} {component : Option String} {resolved : Schema} {name : String}
      (hresolve : s.resolve a = .ok (component, resolved))
      (hkind : scalarName? resolved.kind = some name) : TypeFor s r a (.named name)
  | json {a : RefOr Schema} {component : Option String} {resolved : Schema}
      (hresolve : s.resolve a = .ok (component, resolved))
      (hkind : isShapeless resolved.kind = true) (huses : r.usesJson = true) :
      TypeFor s r a jsonType
  | array {a items : RefOr Schema} {component itemComponent : Option String}
      {resolved resolvedItem : Schema} {item : TypeRef}
      (hresolve : s.resolve a = .ok (component, resolved))
      (hkind : resolved.kind = .array (some items)) (hitem : TypeFor s r items item)
      (hitems : s.resolve items = .ok (itemComponent, resolvedItem)) :
      TypeFor s r a (.list (item.excludeNullIf !resolvedItem.data.nullable))
  | component {a : RefOr Schema} {name : String} {resolved : Schema}
      {properties : List (String × RefOr Schema)} {required : List String} {type : TypeRef}
      (hresolve : s.resolve a = .ok (some name, resolved))
      (hkind : resolved.kind = .object properties required)
      (hassigned : r.assigned? s.position name = some type) : TypeFor s r a type
  | inlined {a : RefOr Schema} {resolved : Schema} {properties : List (String × RefOr Schema)}
      {required : List String} {type : TypeRef} (hresolve : s.resolve a = .ok (none, resolved))
      (hkind : resolved.kind = .object properties required)
      (hobject : ObjectFor s r properties required type) : TypeFor s r a type

/-- The type is one for an object with the properties. -/
inductive ObjectFor (s : Setting) (r : Registry) :
    List (String × RefOr Schema) → List String → TypeRef → Prop
  | hidden {properties : List (String × RefOr Schema)} {required : List String}
      (hvisible : s.visible properties = []) (huses : r.usesJson = true) :
      ObjectFor s r properties required jsonType
  | shown {properties : List (String × RefOr Schema)} {required : List String} {t : Composite}
      (hvisible : s.visible properties ≠ [])
      (hregistered : r.registered? s.position t.name = some (some t))
      (hmembers : MembersFor s r required (s.visible properties) t.members) :
      ObjectFor s r properties required (.named t.name)

/-- There is one member for each property, in order. -/
inductive MembersFor (s : Setting) (r : Registry) :
    List String → List (String × RefOr Schema) → List InputValue → Prop
  | nil {required : List String} : MembersFor s r required [] []
  | cons {required : List String} {property : String} {a : RefOr Schema}
      {rest : List (String × RefOr Schema)} {members : List InputValue}
      {component : Option String} {resolved : Schema} {type : TypeRef}
      (hresolve : s.resolve a = .ok (component, resolved)) (htype : TypeFor s r a type)
      (hrest : MembersFor s r required rest members) :
      MembersFor s r required ((property, a) :: rest)
        (memberFor property required resolved type :: members)

end

/-- What the component got is a type for its properties. -/
def ComponentDone (s : Setting) (r : Registry) (name : String) (type : TypeRef) : Prop :=
  ∀ a resolved properties required, s.resolve a = .ok (some name, resolved) →
    resolved.kind = .object properties required → ObjectFor s r properties required type

/-- The finished type is one for an object. -/
def Made (s : Setting) (r : Registry) (t : Composite) : Prop :=
  t.members ≠ [] ∧ ∃ required properties, MembersFor s r required properties t.members

variable {s : Setting} {r r' : Registry}

/-! ## Growing registries -/

mutual

theorem TypeFor.mono {a : RefOr Schema} {type : TypeRef} (h : TypeFor s r a type)
    (hkeeps : r.Keeps r') : TypeFor s r' a type :=
  match h with
  | .scalar hresolve hkind => .scalar hresolve hkind
  | .json hresolve hkind huses => .json hresolve hkind (hkeeps.usesJson huses)
  | .array hresolve hkind hitem hitems => .array hresolve hkind (hitem.mono hkeeps) hitems
  | .component hresolve hkind hassigned =>
    .component hresolve hkind (hkeeps.assigned _ _ _ hassigned)
  | .inlined hresolve hkind hobject => .inlined hresolve hkind (hobject.mono hkeeps)

theorem ObjectFor.mono {properties : List (String × RefOr Schema)} {required : List String}
    {type : TypeRef} (h : ObjectFor s r properties required type) (hkeeps : r.Keeps r') :
    ObjectFor s r' properties required type :=
  match h with
  | .hidden hvisible huses => .hidden hvisible (hkeeps.usesJson huses)
  | .shown hvisible hregistered hmembers =>
    .shown hvisible (hkeeps.finished _ _ _ hregistered) (hmembers.mono hkeeps)

theorem MembersFor.mono {required : List String} {properties : List (String × RefOr Schema)}
    {members : List InputValue} (h : MembersFor s r required properties members)
    (hkeeps : r.Keeps r') : MembersFor s r' required properties members :=
  match h with
  | .nil => .nil
  | .cons hresolve htype hrest => .cons hresolve (htype.mono hkeeps) (hrest.mono hkeeps)

end

theorem ComponentDone.mono {name : String} {type : TypeRef} (h : ComponentDone s r name type)
    (hkeeps : r.Keeps r') : ComponentDone s r' name type :=
  fun a resolved properties required hresolve hkind =>
    (h a resolved properties required hresolve hkind).mono hkeeps

theorem Made.mono {t : Composite} (h : Made s r t) (hkeeps : r.Keeps r') : Made s r' t := by
  obtain ⟨hsome, required, properties, hmembers⟩ := h
  exact ⟨hsome, required, properties, hmembers.mono hkeeps⟩

/-! ## Members -/

/-- The member is one for the property. -/
def MemberFor (s : Setting) (r : Registry) (required : List String) (p : String × RefOr Schema)
    (m : InputValue) : Prop :=
  ∃ component resolved type, s.resolve p.2 = .ok (component, resolved) ∧ TypeFor s r p.2 type ∧
    m = memberFor p.1 required resolved type

theorem MembersFor.forall₂ {required : List String} {properties : List (String × RefOr Schema)}
    {members : List InputValue} (h : MembersFor s r required properties members) :
    List.Forall₂ (MemberFor s r required) properties members :=
  match h with
  | .nil => .nil
  | .cons hresolve htype hrest => .cons ⟨_, _, _, hresolve, htype, rfl⟩ hrest.forall₂

theorem MembersFor.eq_nil_iff {required : List String} {properties : List (String × RefOr Schema)}
    {members : List InputValue} (h : MembersFor s r required properties members) :
    members = [] ↔ properties = [] := by
  cases h with
  | nil => exact ⟨fun _ => rfl, fun _ => rfl⟩
  | cons => exact ⟨nofun, nofun⟩

/-! ## The parts of a type -/

/-- What a type is for, by what its schema comes to when it is followed. -/
theorem TypeFor.cases_of_resolve {a : RefOr Schema} {type : TypeRef} {component : Option String}
    {resolved : Schema} (h : TypeFor s r a type)
    (hresolve : s.resolve a = .ok (component, resolved)) :
    (∃ name, scalarName? resolved.kind = some name ∧ type = .named name) ∨
      (isShapeless resolved.kind = true ∧ r.usesJson = true ∧ type = jsonType) ∨
      (∃ items item condition, resolved.kind = .array (some items) ∧ TypeFor s r items item ∧
        type = .list (item.excludeNullIf condition)) ∨
      ∃ properties required, resolved.kind = .object properties required ∧
        ((∃ name, component = some name ∧ r.assigned? s.position name = some type) ∨
          component = none ∧ ObjectFor s r properties required type) := by
  cases h with
  | scalar hresolve' hkind =>
    obtain ⟨-, rfl⟩ := Prod.mk.inj (Except.ok.inj (hresolve.symm.trans hresolve'))
    exact Or.inl ⟨_, hkind, rfl⟩
  | json hresolve' hkind huses =>
    obtain ⟨-, rfl⟩ := Prod.mk.inj (Except.ok.inj (hresolve.symm.trans hresolve'))
    exact Or.inr (Or.inl ⟨hkind, huses, rfl⟩)
  | array hresolve' hkind hitem =>
    obtain ⟨-, rfl⟩ := Prod.mk.inj (Except.ok.inj (hresolve.symm.trans hresolve'))
    exact Or.inr (Or.inr (Or.inl ⟨_, _, _, hkind, hitem, rfl⟩))
  | component hresolve' hkind hassigned =>
    obtain ⟨rfl, rfl⟩ := Prod.mk.inj (Except.ok.inj (hresolve.symm.trans hresolve'))
    exact Or.inr (Or.inr (Or.inr ⟨_, _, hkind, Or.inl ⟨_, rfl, hassigned⟩⟩))
  | inlined hresolve' hkind hobject =>
    obtain ⟨rfl, rfl⟩ := Prod.mk.inj (Except.ok.inj (hresolve.symm.trans hresolve'))
    exact Or.inr (Or.inr (Or.inr ⟨_, _, hkind, Or.inr ⟨rfl, hobject⟩⟩))

theorem TypeFor.of_array {a items : RefOr Schema} {type : TypeRef} {component : Option String}
    {resolved : Schema} (h : TypeFor s r a type)
    (hresolve : s.resolve a = .ok (component, resolved))
    (hkind : resolved.kind = .array (some items)) :
    ∃ item condition, TypeFor s r items item ∧ type = .list (item.excludeNullIf condition) := by
  have hcases := h.cases_of_resolve hresolve
  rw [hkind] at hcases
  rcases hcases with ⟨_, hname, -⟩ | ⟨hshapeless, -⟩ | ⟨_, item, condition, heq, hitem, htype⟩ |
    ⟨_, _, heq, -⟩
  · exact nomatch hname
  · exact nomatch hshapeless
  · obtain rfl := Option.some.inj (SchemaKind.array.inj heq)
    exact ⟨item, condition, hitem, htype⟩
  · exact nomatch heq

/-- All components with types are done. -/
def AllDone (c : Components) (r : Registry) : Prop :=
  ∀ position name type, r.assigned? position name = some type →
    ComponentDone ⟨c, position⟩ r name type

/-- When all components are done, it does not matter for an object whether it is one of them. -/
theorem TypeFor.of_object {a : RefOr Schema} {type : TypeRef} {component : Option String}
    {resolved : Schema} {properties : List (String × RefOr Schema)} {required : List String}
    (h : TypeFor s r a type) (hdone : AllDone s.components r)
    (hresolve : s.resolve a = .ok (component, resolved))
    (hkind : resolved.kind = .object properties required) :
    ObjectFor s r properties required type := by
  have hcases := h.cases_of_resolve hresolve
  rw [hkind] at hcases
  rcases hcases with ⟨_, hname, -⟩ | ⟨hshapeless, huses, rfl⟩ | ⟨_, _, _, heq, -⟩ |
    ⟨_, _, heq, ⟨name, rfl, hassigned⟩ | ⟨-, hobject⟩⟩
  · exact nomatch hname
  · obtain rfl := List.isEmpty_iff.mp hshapeless
    exact .hidden rfl huses
  · exact nomatch heq
  · exact hdone _ _ _ hassigned a resolved properties required hresolve hkind
  · obtain ⟨rfl, rfl⟩ := SchemaKind.object.inj heq
    exact hobject

/-- A type for a schema says nothing about null: that depends on where it is used. -/
theorem TypeFor.nullable {a : RefOr Schema} {type : TypeRef} (h : TypeFor s r a type)
    (hdone : AllDone s.components r) : type.excludesNull = false := by
  have hobject : ∀ {properties required type}, ObjectFor s r properties required type →
      type.excludesNull = false := by
    intro properties required type hobject
    cases hobject <;> rfl
  cases h with
  | scalar => rfl
  | json => rfl
  | array => rfl
  | component hresolve hkind hassigned =>
    exact hobject (hdone _ _ _ hassigned _ _ _ _ hresolve hkind)
  | inlined _ _ hfor => exact hobject hfor

end ApiGraph.Generation
