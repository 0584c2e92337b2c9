import ApiGraph.Proofs.Generation.Building

/-!
# Registries without loose ends

Endpoints become fields one after the other, and the registry grows with them (`Run`).  Whenever one
of them is done, the registry is closed under what it refers to: no type is left under construction,
no type is without members, and no reference leads to a type that was given up or to one of the
other position.  And nothing is in it that no field needs.

* `TypeFor.offers`: a type for a schema is made from a name that its position offers.
* `Run.closed`: the registry of a run is closed (`Registry.Closed`).
* `closed_pets`: a run in which a type refers to itself, and another one is given up.
-/

namespace ApiGraph.Generation

open ApiGraph.GraphQL hiding Schema
open ApiGraph.OpenApi (RefOr Schema Components Endpoint)

/-! ## Names on offer -/

/-- The scalars that values of a known shape have. -/
def scalarNames : List String := ["String", "Int", "Float", "Boolean"]

/-- What a type in the position may be made from: scalars, `JSON` if it is in use, and the types
that are registered there. -/
def Registry.Offers (r : Registry) (position : Position) (name : String) : Prop :=
  name ∈ scalarNames ∨ (name = jsonName ∧ r.usesJson = true) ∨ name ∈ (r.types position).keys

theorem mem_scalarNames_of_scalarName? {σ : Type} {kind : OpenApi.SchemaKind σ} {name : String}
    (h : scalarName? kind = some name) : name ∈ scalarNames := by
  cases kind with
  | string | integer | number | boolean =>
    rw [← Option.some.inj h]
    simp [scalarNames]
  | array _ | object _ _ | any => exact nomatch h

theorem offers_json {r : Registry} (h : r.usesJson = true) (position : Position) :
    r.Offers position jsonType.leaf :=
  Or.inr (Or.inl ⟨rfl, h⟩)

variable {s : Setting} {c : Components} {r : Registry}

theorem ObjectFor.offers {properties : List (String × RefOr Schema)} {required : List String}
    {type : TypeRef} (h : ObjectFor s r properties required type) :
    r.Offers s.position type.leaf := by
  cases h with
  | hidden _ huses => exact offers_json huses s.position
  | shown _ hregistered _ => exact Or.inr (Or.inr (Registry.mem_keys hregistered))

mutual

/-- When all components are done, a type for a schema is made from a name on offer. -/
theorem TypeFor.offers {a : RefOr Schema} {type : TypeRef} (h : TypeFor s r a type)
    (hdone : AllDone s.components r) : r.Offers s.position type.leaf :=
  match h with
  | .scalar _ hkind => Or.inl (mem_scalarNames_of_scalarName? hkind)
  | .json _ _ huses => offers_json huses s.position
  | .array _ _ hitem _ => by
    rw [TypeRef.leaf, leaf_excludeNullIf]
    exact hitem.offers hdone
  | .component hresolve hkind hassigned =>
    (hdone _ _ _ hassigned _ _ _ _ hresolve hkind).offers
  | .inlined _ _ hobject => hobject.offers

theorem MembersFor.offers {required : List String} {properties : List (String × RefOr Schema)}
    {members : List InputValue} (h : MembersFor s r required properties members)
    (hdone : AllDone s.components r) : ∀ m ∈ members, r.Offers s.position m.type.leaf :=
  match h with
  | .nil => fun _ hm => absurd hm List.not_mem_nil
  | .cons _ htype hrest => by
    refine List.forall_mem_cons.mpr ⟨?_, hrest.offers hdone⟩
    rw [memberFor, leaf_excludeNullIf]
    exact htype.offers hdone

end

theorem OptionalTypeFor.offers {schema : Option (RefOr Schema)} {type : TypeRef}
    (h : OptionalTypeFor s r schema type) (hdone : AllDone s.components r) :
    r.Offers s.position type.leaf := by
  cases schema with
  | none =>
    rw [show type = .named "String" from h]
    exact Or.inl (List.mem_cons_self ..)
  | some a => exact TypeFor.offers h hdone

theorem offers_of_argumentsFor {schemas : List (Option (RefOr Schema))}
    {arguments : List InputValue} (h : List.Forall₂ (ArgumentFor c r) schemas arguments)
    (hdone : AllDone c r) : ∀ a ∈ arguments, r.Offers .input a.type.leaf := by
  induction h with
  | nil => exact fun _ ha => absurd ha List.not_mem_nil
  | cons hargument _ ih =>
    refine List.forall_mem_cons.mpr ⟨?_, ih⟩
    obtain ⟨type, condition, heq, htype⟩ := hargument
    rw [heq, leaf_excludeNullIf]
    exact htype.offers hdone

/-- What a field refers to is on offer. -/
theorem FieldFor.offers {e : Endpoint} {f : Field} (h : FieldFor c r e f) (hdone : AllDone c r)
    {position : Position} {name : String} (huses : FieldUses f position name) :
    r.Offers position name := by
  rcases huses with ⟨rfl, type, htype, rfl⟩ | ⟨rfl, type, htype, rfl⟩
  · rw [List.mem_singleton.mp htype]
    exact h.type.offers hdone
  · obtain ⟨a, ha, rfl⟩ := List.mem_map.mp htype
    exact offers_of_argumentsFor h.arguments hdone a ha

/-! ## Runs -/

/-- Endpoints became these fields, one after the other, and this is the registry now. -/
inductive Run (c : Components) : List Field → Registry → Prop
  | start : Run c [] (.start c.schemas.keys)
  | next {fields : List Field} {f : Field} {e : Endpoint} {r r' : Registry} (h : Run c fields r)
      (hfield : endpointField c e r = .ok (f, r')) : Run c (fields ++ [f]) r'

/-- One of the fields refers to the name. -/
def FieldsUse (fields : List Field) (position : Position) (name : String) : Prop :=
  ∃ f ∈ fields, FieldUses f position name

/-- There are no loose ends in the registry that belongs to the fields. -/
structure Registry.Closed (r : Registry) (fields : List Field) : Prop where
  /-- All types are finished, under their own names, and have members. -/
  finished : ∀ position, ∀ e ∈ r.types position,
    ∃ t, e.2 = some t ∧ t.name = e.1 ∧ t.members ≠ []
  /-- No name is one of a type for answers and of one for arguments. -/
  apart : ∀ name ∈ r.objects.keys, name ∉ r.inputs.keys
  /-- What the fields refer to is there. -/
  fields_offered : ∀ position name, FieldsUse fields position name → r.Offers position name
  /-- What the types refer to is there. -/
  members_offered : ∀ position, ∀ e ∈ r.types position, ∀ t, e.2 = some t →
    ∀ m ∈ t.members, r.Offers position m.type.leaf
  /-- The types are those that the fields need. -/
  needed : ∀ position, ∀ name ∈ (r.types position).keys,
    Used (FieldsUse fields) r position name
  /-- `JSON` is in use only if the fields need it. -/
  json_needed : r.usesJson = true → ∃ position, Used (FieldsUse fields) r position jsonName

/-- A run builds what its fields refer to. -/
theorem Run.built {fields : List Field} (h : Run c fields r) :
    Built c (FieldsUse fields) (.start c.schemas.keys) r ∧
      ∀ f ∈ fields, ∃ e, FieldFor c r e f := by
  induction h with
  | start => exact ⟨.refl (.start _), fun _ hf => absurd hf List.not_mem_nil⟩
  | @next fields f e r r' _ hfield ih =>
    obtain ⟨hbuilt, hfor⟩ := ih
    obtain ⟨hstep, hlast⟩ := (makes_of_endpointField hfield).built hbuilt.wellNamed
    constructor
    · refine (hbuilt.mono fun p x => ?_).trans (hstep.mono fun p x huses => ?_)
      · rintro ⟨g, hg, huses⟩
        exact ⟨g, List.mem_append_left _ hg, huses⟩
      · exact ⟨f, List.mem_append_right _ (List.mem_singleton_self f), huses⟩
    · intro g hg
      rcases List.mem_append.mp hg with hg | hg
      · obtain ⟨e', he'⟩ := hfor g hg
        exact ⟨e', he'.mono hstep.keeps⟩
      · rw [List.mem_singleton.mp hg]
        exact ⟨e, hlast⟩

/-- Whenever an endpoint has become a field, the registry is closed. -/
theorem Run.closed {fields : List Field} (h : Run c fields r) : r.Closed fields := by
  obtain ⟨hbuilt, hfor⟩ := h.built
  have hdone := hbuilt.allDone
  have hwell := hbuilt.wellNamed
  constructor
  case finished =>
    intro position e he
    obtain ⟨t, ht, hmade, -⟩ := hbuilt.made_of_mem he
    exact ⟨t, ht, hwell.name position e he t ht, hmade.1⟩
  case apart =>
    intro name houtput hinput
    exact nomatch hwell.apart .output .input name houtput hinput
  case fields_offered =>
    rintro position name ⟨f, hf, huses⟩
    obtain ⟨e, he⟩ := hfor f hf
    exact he.offers hdone huses
  case members_offered =>
    intro position e he t ht
    obtain ⟨t', ht', ⟨-, _, _, hmembers⟩, -⟩ := hbuilt.made_of_mem he
    obtain rfl := Option.some.inj (ht.symm.trans ht')
    exact hmembers.offers hdone
  case needed =>
    intro position name hname
    obtain ⟨e, he, rfl⟩ := List.mem_map.mp hname
    obtain ⟨_, -, -, hused⟩ := hbuilt.made_of_mem he
    exact hused
  case json_needed => exact hbuilt.json_of_usesJson

/-- A pet refers to its mother, which is one, and to its keeper, of whom nothing can be seen in
answers. -/
def petComponents : Components :=
  { schemas := [
      ("Pet", .item (.mk {} (.object
        [("mother", .reference "#/components/schemas/Pet"),
          ("keeper", .reference "#/components/schemas/Keeper")] []))),
      ("Keeper", .item (.mk {} (.object
        [("token", .item (.mk { writeOnly := true } .string))] [])))] }

def petEndpoint : Endpoint :=
  { path := "/pets", method := .post
    body := some { component := none, schema := .reference "#/components/schemas/Pet"
                   required := true }
    response := some (.reference "#/components/schemas/Pet") }

def petField : Field :=
  { name := "postPets", type := .named "Pet"
    arguments := [{ name := "petInput", type := .nonNull (.named "PetInput") }] }

/-- In answers the type of the keeper was begun and given up. -/
def petRegistry : Registry :=
  { names := { taken := ["KeeperInput", "PetInput", "Keeper", "Pet", "Query", "Mutation", "JSON"]
               reserved := ["PetInput", "Pet", "KeeperInput", "Keeper"] }
    assigned := [((.input, "Keeper"), .named "KeeperInput"), ((.input, "Pet"), .named "PetInput"),
      ((.output, "Keeper"), .named "JSON"), ((.output, "Keeper"), .named "Keeper"),
      ((.output, "Pet"), .named "Pet")]
    objects := [
      ("Pet", some { name := "Pet", members := [{ name := "mother", type := .named "Pet" },
        { name := "keeper", type := .named "JSON" }], description := none })]
    inputs := [
      ("PetInput", some { name := "PetInput", members := [
        { name := "mother", type := .named "PetInput" },
        { name := "keeper", type := .named "KeeperInput" }], description := none }),
      ("KeeperInput", some { name := "KeeperInput", members := [
        { name := "token", type := .named "String" }], description := none })]
    usesJson := true }

theorem closed_pets :
    endpointField petComponents petEndpoint (.start petComponents.schemas.keys) =
        .ok (petField, petRegistry) ∧
      petRegistry.Closed [petField] := by
  have hfield : endpointField petComponents petEndpoint (.start petComponents.schemas.keys) =
      .ok (petField, petRegistry) := by decide +kernel
  exact ⟨hfield, Run.closed (.next .start hfield)⟩

end ApiGraph.Generation
