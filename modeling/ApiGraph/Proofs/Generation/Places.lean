import ApiGraph.Proofs.Generation.TypeNames

/-!
# Components and their types

A schema of the document and the type that the generated schema has for it stand in the same place:
behind the same fields and arguments, in the same list, under the same property.  `Place` walks over
document and schema side by side, so it finds every reference to a component with the type that
stands for it.

* `Place.typeFor`: what is found in a place is a type for the schema, as the registry had it in the
  end.
* `componentTypes_of_schemaOf`: each component that is an object has one type in a position, which
  is found in all places where the component is referred to (`ComponentTypes`).
* `componentTypes_owner`: two components that refer to one another.
-/

namespace ApiGraph.Generation

open ApiGraph.GraphQL hiding Schema
open ApiGraph.OpenApi (RefOr Schema Components Endpoint)

/-! ## The types of a schema -/

/-- The names and types of the members of a registered type. -/
def Composite.memberTypes (t : Composite) : List (String × TypeRef) :=
  t.members.map fun m => (m.name, m.type)

/-- The types with members that a schema has in a position. -/
def typesIn (schema : GraphQL.Schema) : Position → Dictionary (List (String × TypeRef))
  | .output => schema.objects.map fun o => (o.name, o.fields.map fun f => (f.name, f.type))
  | .input => schema.inputs.map fun i => (i.name, i.fields.map fun m => (m.name, m.type))

theorem nodup_keys_typesIn {schema : GraphQL.Schema} (h : schema.typeNames.Nodup)
    (position : Position) : (typesIn schema position).keys.Nodup := by
  have htypes := List.Nodup.of_append_left h
  cases position with
  | output =>
    have hkeys : (typesIn schema .output).keys = schema.objects.map (·.name) := List.map_map
    rw [hkeys]
    exact List.Nodup.of_append_left htypes
  | input =>
    have hkeys : (typesIn schema .input).keys = schema.inputs.map (·.name) := List.map_map
    rw [hkeys]
    exact List.Nodup.of_append_right htypes

/-- A name leads to one type at most. -/
theorem eq_of_mem_typesIn {schema : GraphQL.Schema} (h : schema.typeNames.Nodup)
    {position : Position} {name : String} {members members' : List (String × TypeRef)}
    (hmem : (name, members) ∈ typesIn schema position)
    (hmem' : (name, members') ∈ typesIn schema position) : members = members' := by
  have hnodup := nodup_keys_typesIn h position
  have hget := Dictionary.get?_of_mem hnodup hmem
  exact Option.some.inj (hget.symm.trans (Dictionary.get?_of_mem hnodup hmem'))

/-- The registered types are those of the schema. -/
theorem mem_typesIn_assemble (roots : Roots) {r : Registry} {position : Position} {t : Composite}
    (h : r.registered? position t.name = some (some t)) :
    (t.name, t.memberTypes) ∈ typesIn (assemble roots r) position := by
  have hfinished := mem_finished_of_registered? h
  cases position with
  | output =>
    refine List.mem_map.mpr ⟨t.toObject, ?_, ?_⟩
    · rw [objects_assemble]
      exact List.mem_append_right _ (List.mem_map_of_mem hfinished)
    · rw [Composite.memberTypes, Composite.toObject, List.map_map]
      rfl
  | input => exact List.mem_map.mpr ⟨t.toInput, List.mem_map_of_mem hfinished, rfl⟩

/-! ## Places -/

/-- The name of the root that the endpoint belongs to. -/
def rootName (e : Endpoint) : String :=
  if e.isQuery then queryName else mutationName

/-- The root of the endpoint has the field under the name of the endpoint. -/
def IsFieldOf (schema : GraphQL.Schema) (e : Endpoint) (f : Field) : Prop :=
  ∃ o ∈ schema.objects, o.name = rootName e ∧ f ∈ o.fields ∧ f.name = e.fieldName

/-- The schema of the document and the type stand in the same place. -/
inductive Place (c : Components) (endpoints : List Endpoint) (schema : GraphQL.Schema) :
    Position → RefOr Schema → TypeRef → Prop
  | response {e : Endpoint} {f : Field} {a : RefOr Schema} (he : e ∈ endpoints)
      (hfield : IsFieldOf schema e f) (ha : a ∈ e.response) :
      Place c endpoints schema .output a f.type
  | argument {e : Endpoint} {f : Field} {slot : Option (RefOr Schema)} {argument : InputValue}
      {a : RefOr Schema} (he : e ∈ endpoints) (hfield : IsFieldOf schema e f)
      (hslot : (slot, argument) ∈ (argumentSchemas e).zip f.arguments) (ha : a ∈ slot) :
      Place c endpoints schema .input a argument.type
  | item {position : Position} {a items : RefOr Schema} {type item : TypeRef}
      {component : Option String} {resolved : Schema}
      (h : Place c endpoints schema position a type)
      (hresolve : Setting.resolve ⟨c, position⟩ a = .ok (component, resolved))
      (hkind : resolved.kind = .array (some items))
      (htype : type = .list item ∨ type = .nonNull (.list item)) :
      Place c endpoints schema position items item
  | member {position : Position} {a : RefOr Schema} {type : TypeRef} {component : Option String}
      {resolved : Schema} {properties : List (String × RefOr Schema)} {required : List String}
      {members : List (String × TypeRef)} {p : String × RefOr Schema} {m : String × TypeRef}
      (h : Place c endpoints schema position a type)
      (hresolve : Setting.resolve ⟨c, position⟩ a = .ok (component, resolved))
      (hkind : resolved.kind = .object properties required)
      (hmembers : (type.leaf, members) ∈ typesIn schema position)
      (hmember : (p, m) ∈ (Setting.visible ⟨c, position⟩ properties).zip members) :
      Place c endpoints schema position p.2 m.2

/-! ## What is found in a place -/

theorem excludeNullIf_false (type : TypeRef) : type.excludeNullIf false = type := by
  cases type <;> rfl

/-- Behind the mark of a list that excludes null is the list. -/
theorem list_of_excludeNullIf {item item' : TypeRef} {condition : Bool} {type : TypeRef}
    (heq : type = (TypeRef.list item).excludeNullIf condition)
    (h : type = .list item' ∨ type = .nonNull (.list item')) : item' = item := by
  subst heq
  cases condition <;> simp_all [TypeRef.excludeNullIf]

variable {c : Components} {r : Registry} {components : List String} {endpoints : List Endpoint}
  {roots : Roots}

theorem nodup_objectNames {schema : GraphQL.Schema} (h : schema.typeNames.Nodup) :
    (schema.objects.map (·.name)).Nodup :=
  List.Nodup.of_append_left (List.Nodup.of_append_left h)

/-- The root that has fields for endpoints. -/
theorem rootObject_mem {e : Endpoint} (hsome : roots.fieldsFor e ≠ []) :
    (⟨rootName e, roots.fieldsFor e, none⟩ : ObjectType) ∈ (assemble roots r).objects := by
  rw [objects_assemble]
  refine List.mem_append_left _ ?_
  unfold Roots.fieldsFor at hsome ⊢
  unfold rootName
  cases he : e.isQuery with
  | true =>
    rw [he] at hsome
    exact queryObject_mem hsome
  | false =>
    rw [he] at hsome
    exact mutationObject_mem hsome

section Runs

variable (hmakes : MakesFields c {} endpoints (.start components) roots r)
include hmakes

theorem MakesFields.allDone : AllDone c r :=
  (hmakes.built (.start components)).1.allDone

/-- The schema has one field for an endpoint. -/
theorem MakesFields.exists_isFieldOf {e : Endpoint} (he : e ∈ endpoints) :
    ∃ f, IsFieldOf (assemble roots r) e f ∧ FieldFor c r e f ∧
      ∀ g, IsFieldOf (assemble roots r) e g → g = f := by
  obtain ⟨f, hf, hfor⟩ := (hmakes.built (.start components)).2 e he
  have hroot := rootObject_mem (r := r) (List.ne_nil_of_mem hf)
  refine ⟨f, ⟨_, hroot, rfl, hf, hfor.name⟩, hfor, ?_⟩
  rintro g ⟨o, ho, hname, hg, hgname⟩
  obtain rfl := List.inj_on_of_nodup_map (nodup_objectNames hmakes.nodup_typeNames) ho hroot hname
  have hnodup : ((roots.fieldsFor e).map (·.name)).Nodup := by
    obtain ⟨hquery, hmutation⟩ := hmakes.nodup ⟨List.nodup_nil, List.nodup_nil⟩
    unfold Roots.fieldsFor
    split
    · exact hquery
    · exact hmutation
  exact List.inj_on_of_nodup_map hnodup hg hf (hgname.trans hfor.name.symm)

theorem MakesFields.fieldFor {e : Endpoint} {f : Field} (he : e ∈ endpoints)
    (hfield : IsFieldOf (assemble roots r) e f) : FieldFor c r e f := by
  obtain ⟨g, -, hfor, hunique⟩ := hmakes.exists_isFieldOf he
  rw [hunique f hfield]
  exact hfor

/-- What is found in a place is a type for the schema. -/
theorem Place.typeFor {position : Position} {a : RefOr Schema} {type : TypeRef}
    (h : Place c endpoints (assemble roots r) position a type) :
    ∃ made condition, type = made.excludeNullIf condition ∧ TypeFor ⟨c, position⟩ r a made := by
  have hdone := hmakes.allDone
  induction h with
  | @response e f a he hfield ha =>
    have hfor := (hmakes.fieldFor he hfield).type
    rw [show e.response = some a from ha] at hfor
    exact ⟨f.type, false, (excludeNullIf_false _).symm, hfor⟩
  | @argument e f slot argument a he hfield hslot ha =>
    have hfor := List.forall₂_zip (hmakes.fieldFor he hfield).arguments hslot
    obtain ⟨made, condition, heq, htype⟩ := hfor
    rw [show slot = some a from ha] at htype
    exact ⟨made, condition, heq, htype⟩
  | item _ hresolve hkind htype ih =>
    obtain ⟨made, condition, heq, hmade⟩ := ih
    obtain ⟨item, itemCondition, hitem, rfl⟩ := hmade.of_array hresolve hkind
    exact ⟨item, itemCondition, list_of_excludeNullIf heq htype, hitem⟩
  | member _ hresolve hkind hmembers hmember ih =>
    obtain ⟨made, condition, rfl, hmade⟩ := ih
    have hobject := hmade.of_object hdone hresolve hkind
    cases hobject with
    | hidden hvisible =>
      rw [hvisible] at hmember
      exact absurd hmember List.not_mem_nil
    | shown _ hregistered hfor =>
      rw [leaf_excludeNullIf] at hmembers
      have hsame := eq_of_mem_typesIn hmakes.nodup_typeNames hmembers
        (mem_typesIn_assemble roots hregistered)
      rw [hsame, Composite.memberTypes, List.zip_map_right] at hmember
      obtain ⟨⟨p, m⟩, hzip, heq⟩ := List.mem_map.mp hmember
      obtain ⟨rfl, rfl⟩ := Prod.mk.inj heq
      obtain ⟨_, _, type, -, htype, rfl⟩ := List.forall₂_zip hfor.forall₂ hzip
      exact ⟨type, _, rfl, htype⟩

/-- A schema that is worked on for an endpoint has a place. -/
theorem exists_place_of_worksOn {e : Endpoint} {position : Position} {a : RefOr Schema}
    (he : e ∈ endpoints) (h : WorksOn e position a) :
    ∃ type, Place c endpoints (assemble roots r) position a type := by
  obtain ⟨f, hfield, hfor, -⟩ := hmakes.exists_isFieldOf he
  -- For an argument, the place is found beside its schema.
  have hargument : ∀ a, some a ∈ argumentSchemas e →
      ∃ type, Place c endpoints (assemble roots r) .input a type := by
    intro a ha
    obtain ⟨argument, hslot⟩ := exists_mem_zip hfor.arguments ha
    exact ⟨argument.type, .argument he hfield hslot rfl⟩
  cases h with
  | response ha => exact ⟨f.type, .response he hfield ha⟩
  | @parameter p a hp ha =>
    refine hargument a (List.mem_append_left _ ?_)
    exact List.mem_map.mpr ⟨p, hp, ha⟩
  | @body b hb =>
    refine hargument b.schema (List.mem_append_right _ ?_)
    rw [show e.body = some b from hb]
    exact List.mem_singleton_self _

/-- What is inside a schema that has a place has one too. -/
theorem exists_place_of_inside {position : Position} {a b : RefOr Schema} {type : TypeRef}
    (hinside : Inside ⟨c, position⟩ a b)
    (h : Place c endpoints (assemble roots r) position a type) :
    ∃ type', Place c endpoints (assemble roots r) position b type' := by
  induction hinside generalizing type with
  | refl => exact ⟨type, h⟩
  | item hresolve hkind _ ih =>
    obtain ⟨made, condition, rfl, hmade⟩ := h.typeFor hmakes
    obtain ⟨item, itemCondition, -, rfl⟩ := hmade.of_array hresolve hkind
    have hlist : ∀ item : TypeRef, (TypeRef.list item).excludeNullIf condition = .list item ∨
        (TypeRef.list item).excludeNullIf condition = .nonNull (.list item) := by
      intro item
      cases condition with
      | false => exact Or.inl rfl
      | true => exact Or.inr rfl
    exact ih (.item h hresolve hkind (hlist _))
  | @member _ _ _ _ properties _ p hresolve hkind hp _ ih =>
    obtain ⟨made, condition, rfl, hmade⟩ := h.typeFor hmakes
    have hobject := hmade.of_object hmakes.allDone hresolve hkind
    cases hobject with
    | hidden hvisible =>
      rw [hvisible] at hp
      exact absurd hp List.not_mem_nil
    | @shown _ _ t _ hregistered hfor =>
      have hmembers := mem_typesIn_assemble roots hregistered
      have hleaf : ((TypeRef.named t.name).excludeNullIf condition).leaf = t.name :=
        leaf_excludeNullIf ..
      rw [← hleaf] at hmembers
      obtain ⟨m, hzip⟩ := exists_mem_zip hfor.forall₂ hp
      have hmember : (p, (m.name, m.type)) ∈
          (Setting.visible ⟨c, position⟩ properties).zip t.memberTypes := by
        rw [Composite.memberTypes, List.zip_map_right]
        exact List.mem_map.mpr ⟨_, hzip, rfl⟩
      exact ih (.member h hresolve hkind hmembers hmember)

end Runs

/-! ## Components -/

/-- The type is the named one, whether null is excluded or not. -/
def IsNamed (type : TypeRef) (name : String) : Prop :=
  type = .named name ∨ type = .nonNull (.named name)

theorem isNamed_excludeNullIf (name : String) (condition : Bool) :
    IsNamed ((TypeRef.named name).excludeNullIf condition) name := by
  cases condition with
  | false => exact Or.inl rfl
  | true => exact Or.inr rfl

theorem excludesNull_excludeNullIf {type : TypeRef} (h : type.excludesNull = false)
    (condition : Bool) : (type.excludeNullIf condition).excludesNull = condition := by
  cases type with
  | nonNull inner => exact nomatch h
  | named name => cases condition <;> rfl
  | list item => cases condition <;> rfl

/-- The member has the name of the property, and it excludes null exactly if the property is
required and what its schema comes to is not nullable. -/
def IsMemberFor (s : Setting) (required : List String) (p : String × RefOr Schema)
    (m : String × TypeRef) : Prop :=
  m.1 = fieldName p.1 ∧ ∃ component resolved, s.resolve p.2 = .ok (component, resolved) ∧
    m.2.excludesNull = (required.contains p.1 && !resolved.data.nullable)

/-- What the schema has, in the position, for a component that is an object with the properties. -/
structure ComponentTypes (c : Components) (endpoints : List Endpoint) (schema : GraphQL.Schema)
    (position : Position) (component : String) (properties : List (String × RefOr Schema))
    (required : List String) : Prop where
  /-- The component is referred to. -/
  placed : ∃ a type, Setting.RefersTo ⟨c, position⟩ a component ∧
    Place c endpoints schema position a type
  /-- With visible properties, it has one type with a member for each of them, and this is the
  type in all places. -/
  shown : Setting.visible ⟨c, position⟩ properties ≠ [] → ∃ name members,
    (typesIn schema position).filter (fun t => t.1 == name) = [(name, members)] ∧
      List.Forall₂ (IsMemberFor ⟨c, position⟩ required)
        (Setting.visible ⟨c, position⟩ properties) members ∧
      ∀ a type, Setting.RefersTo ⟨c, position⟩ a component →
        Place c endpoints schema position a type → IsNamed type name
  /-- Without any, it is `JSON` in all places. -/
  hidden : Setting.visible ⟨c, position⟩ properties = [] → ∀ a type,
    Setting.RefersTo ⟨c, position⟩ a component →
      Place c endpoints schema position a type → IsNamed type jsonName

/-- A type for an object with visible properties is the registered one that its component got. -/
theorem TypeFor.assigned {s : Setting} {a : RefOr Schema} {type : TypeRef} {component : String}
    {resolved : Schema} {properties : List (String × RefOr Schema)} {required : List String}
    (h : TypeFor s r a type) (hresolve : s.resolve a = .ok (some component, resolved))
    (hkind : resolved.kind = .object properties required) (hvisible : s.visible properties ≠ []) :
    r.assigned? s.position component = some type := by
  have hcases := h.cases_of_resolve hresolve
  rw [hkind] at hcases
  rcases hcases with ⟨_, hname, -⟩ | ⟨hshapeless, -⟩ | ⟨_, _, _, heq, -⟩ |
    ⟨_, _, -, ⟨_, heq, hassigned⟩ | ⟨hnone, -⟩⟩
  · exact nomatch hname
  · rw [List.isEmpty_iff.mp hshapeless] at hvisible
    exact absurd rfl hvisible
  · exact nomatch heq
  · rw [Option.some.inj heq]
    exact hassigned
  · exact nomatch hnone

theorem isMemberFor_of_memberFor {s : Setting} (hdone : AllDone s.components r)
    {required : List String} {p : String × RefOr Schema} {m : InputValue}
    (h : MemberFor s r required p m) : IsMemberFor s required p (m.name, m.type) := by
  obtain ⟨component, resolved, type, hresolve, htype, rfl⟩ := h
  exact ⟨rfl, component, resolved, hresolve, excludesNull_excludeNullIf (htype.nullable hdone) _⟩

theorem MakesFields.componentTypes
    (hmakes : MakesFields c {} endpoints (.start components) roots r) {position : Position}
    {b : RefOr Schema} {type : TypeRef} {component : String} {resolved : Schema}
    {properties : List (String × RefOr Schema)} {required : List String}
    (hplace : Place c endpoints (assemble roots r) position b type)
    (hresolve : Setting.resolve ⟨c, position⟩ b = .ok (some component, resolved))
    (hkind : resolved.kind = .object properties required) :
    ComponentTypes c endpoints (assemble roots r) position component properties required := by
  have hdone := hmakes.allDone
  have hresolves : ∀ a, Setting.RefersTo ⟨c, position⟩ a component →
      Setting.resolve ⟨c, position⟩ a = .ok (some component, resolved) := fun a ha =>
    (resolve_eq_of_refersTo ha ⟨_, hresolve⟩).trans hresolve
  refine ⟨⟨b, type, ⟨_, hresolve⟩, hplace⟩, fun hvisible => ?_, fun hvisible a type ha h => ?_⟩
  · obtain ⟨made, _, -, hmade⟩ := hplace.typeFor hmakes
    have hobject := hmade.of_object hdone hresolve hkind
    have hassigned := hmade.assigned hresolve hkind hvisible
    cases hobject with
    | hidden hnone => exact absurd hnone hvisible
    | @shown _ _ t _ hregistered hfor =>
      refine ⟨t.name, t.memberTypes, ?_, ?_, fun a type ha h => ?_⟩
      · exact filter_name_eq (nodup_keys_typesIn hmakes.nodup_typeNames position)
          (mem_typesIn_assemble roots hregistered)
      · refine List.forall₂_map_right_iff.mpr (hfor.forall₂.imp fun p m hm => ?_)
        exact isMemberFor_of_memberFor hdone hm
      · obtain ⟨made', condition, rfl, hmade'⟩ := h.typeFor hmakes
        have hassigned' := hmade'.assigned (hresolves a ha) hkind hvisible
        obtain rfl := Option.some.inj (hassigned.symm.trans hassigned')
        exact isNamed_excludeNullIf ..
  · obtain ⟨made, condition, rfl, hmade⟩ := h.typeFor hmakes
    have hobject := hmade.of_object hdone (hresolves a ha) hkind
    cases hobject with
    | hidden => exact isNamed_excludeNullIf ..
    | shown hsome => exact absurd hvisible hsome

/-- Every component that is an object, and is reached from an endpoint in a position, has one type
there. -/
theorem componentTypes_of_schemaOf {j : Json} {d : OpenApi.Document} {schema : GraphQL.Schema}
    (hschema : schemaOf j = .ok schema) (hdocument : documentOf j = .ok d)
    (hendpoints : d.endpoints = .ok endpoints) {e : Endpoint} (he : e ∈ endpoints)
    {position : Position} {a b : RefOr Schema} (hworks : WorksOn e position a)
    (hinside : Inside ⟨d.components, position⟩ a b) {component : String} {resolved : Schema}
    (hresolve : Setting.resolve ⟨d.components, position⟩ b = .ok (some component, resolved))
    {properties : List (String × RefOr Schema)} {required : List String}
    (hkind : resolved.kind = .object properties required) :
    ComponentTypes d.components endpoints schema position component properties required := by
  obtain ⟨hdocument', hendpoints', hmakes, -⟩ := makes_of_schemaOf hschema
  obtain rfl := Except.ok.inj (hdocument'.symm.trans hdocument)
  obtain rfl := Except.ok.inj (hendpoints'.symm.trans hendpoints)
  obtain ⟨_, hroot⟩ := exists_place_of_worksOn hmakes he hworks
  obtain ⟨_, hplace⟩ := exists_place_of_inside hmakes hinside hroot
  exact hmakes.componentTypes hplace hresolve hkind

/-- A document with pets and owners, each of whom has one of the others. -/
def familyDocument : Json :=
  .object [("openapi", .string "3.0.0"),
    ("info", .object [("title", .string "Pets"), ("version", .string "1")]),
    ("paths", .object [("/pets", .object [("get", .object [("responses", .object [("200",
      .object [("description", .string "All pets"), ("content", .object [("application/json",
        .object [("schema", .object [("type", .string "array"), ("items",
          .object [("$ref", .string "#/components/schemas/Pet")])])])])])])])])]),
    ("components", .object [("schemas", .object [
      ("Pet", .object [("type", .string "object"), ("required", .array [.string "name"]),
        ("properties", .object [("name", .object [("type", .string "string")]),
          ("owner", .object [("$ref", .string "#/components/schemas/Owner")])])]),
      ("Owner", .object [("type", .string "object"), ("required", .array [.string "first_pet"]),
        ("properties", .object [
          ("pin", .object [("type", .string "string"), ("writeOnly", .bool true)]),
          ("first_pet", .object [("$ref", .string "#/components/schemas/Pet")])])])])])]

def familySchema : GraphQL.Schema :=
  { objects := [
      { name := "Query", fields := [{ name := "pets", type := .list (.nonNull (.named "Pet")) }] },
      { name := "Pet", fields := [{ name := "name", type := .nonNull (.named "String") },
        { name := "owner", type := .named "Owner" }] },
      { name := "Owner", fields := [{ name := "firstPet", type := .nonNull (.named "Pet") }] }]
    inputs := []
    usesJson := false
    hasMutation := false }

def ownerProperties : List (String × RefOr Schema) :=
  [("pin", .item (.mk { writeOnly := true } .string)),
    ("first_pet", .reference "#/components/schemas/Pet")]

def petProperties : List (String × RefOr Schema) :=
  [("name", .item (.mk {} .string)), ("owner", .reference "#/components/schemas/Owner")]

def familyComponents : Components :=
  { schemas := [("Pet", .item (.mk {} (.object petProperties ["name"]))),
      ("Owner", .item (.mk {} (.object ownerProperties ["first_pet"])))] }

/-- The answer is a list of pets. -/
def familyResponse : RefOr Schema :=
  .item (.mk {} (.array (some (.reference "#/components/schemas/Pet"))))

def familyEndpoint : Endpoint :=
  { path := "/pets", method := .get, response := some familyResponse }

theorem componentTypes_owner :
    schemaOf familyDocument = .ok familySchema ∧
      ComponentTypes familyComponents [familyEndpoint] familySchema .output "Owner" ownerProperties
        ["first_pet"] := by
  have hschema : schemaOf familyDocument = .ok familySchema := by decide +kernel
  have hdocument : documentOf familyDocument = .ok
      { components := familyComponents
        paths := [("/pets", .item { operations := [(.get, { responses := [(.code 200, .item
          { content := [("application/json", some familyResponse)] })] })] })] } := rfl
  -- The list is worked on, in it a pet, and of the pet the owner.
  have howner : ("owner", .reference "#/components/schemas/Owner") ∈
      Setting.visible ⟨familyComponents, .output⟩ petProperties := by
    refine List.mem_filter.mpr ⟨List.mem_cons_of_mem _ (List.mem_singleton_self _), rfl⟩
  have hinside : Inside ⟨familyComponents, .output⟩ familyResponse
      (.reference "#/components/schemas/Owner") :=
    .item rfl rfl (.member rfl rfl howner (.refl _))
  exact ⟨hschema, componentTypes_of_schemaOf hschema hdocument rfl (List.mem_singleton_self _)
    (.response rfl) hinside rfl rfl⟩

end ApiGraph.Generation
