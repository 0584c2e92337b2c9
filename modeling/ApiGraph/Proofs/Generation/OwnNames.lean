import ApiGraph.Proofs.Generation.Grants
import ApiGraph.Proofs.Generation.Places

/-!
# Components under their own names

A component would like to have its own name for its type, or in input position its own name with the
suffix for it.  Schemas without a name step aside for that, other components do not: the first one
that is met gets a name that several of them could have, and a name that is preferred by one of them
may be a numbered one of another.

A registry remembers which component was given which name (`Registry.Gave`), and with
`Registry.Credited` that tells why a component has the name that it has.

* `Step.credited`: every step keeps these records in order.
* `typeNamed_iff`: which components have types of their own names.
* `typeNamed_petInput`: a component that has not, because another one in input position is called
  the same.
-/

namespace ApiGraph.Generation

open ApiGraph.GraphQL hiding Schema
open ApiGraph.OpenApi (RefOr Schema Components Endpoint)
open Relation (ReflTransGen)

/-! ## Names that components were given -/

/-- The component was given a type of this name, which may have been given up since. -/
def Registry.Gave (r : Registry) (position : Position) (component name : String) : Prop :=
  ((position, component), TypeRef.named name) ∈ r.assigned ∧ name ∉ fixedNames

/-- All names that are kept for components are on record when they are taken. -/
structure Registry.Credited (c : Components) (r : Registry) : Prop where
  reserved : r.names.reserved = (NamePool.start c.schemas.keys).reserved
  fixed : ∀ name ∈ fixedNames, name ∈ r.names.taken
  known : ∀ position component name, r.Gave position component name →
    component ∈ c.schemas.keys
  taken : ∀ position component name, r.Gave position component name → name ∈ r.names.taken
  /-- A component has no number behind its name unless the name was taken. -/
  chosen : ∀ position component name, r.Gave position component name →
    name = position.preferred (typeName component) ∨
      position.preferred (typeName component) ∈ r.names.taken ∧
        IsNumbered (position.preferred (typeName component)) name
  /-- A name is given to one component. -/
  owner : ∀ name p k p' k', r.Gave p k name → r.Gave p' k' name → p = p' ∧ k = k'
  /-- A component is given one name. -/
  single : ∀ p k name name', r.Gave p k name → r.Gave p k name' → name = name'
  kept : ∀ name ∈ r.names.reserved, name ∈ r.names.taken →
    name ∈ fixedNames ∨ ∃ position component, r.Gave position component name

section Objects

variable {s : Setting} {component : Option String} {base : String} {r : Registry}

theorem names_beginObject : (beginObject s component base r).2.names =
    { r.names with taken := claimedName s component base r :: r.names.taken } := by
  rw [beginObject_eq, Registry.beginType, Registry.names_setTypes, Registry.names_assignTo]
  rfl

theorem mem_assigned_assignTo {position : Position} {type : TypeRef}
    {e : (Position × String) × TypeRef} :
    e ∈ (r.assignTo position component type).assigned ↔
      (component = some e.1.2 ∧ e.1.1 = position ∧ e.2 = type) ∨ e ∈ r.assigned := by
  obtain ⟨⟨p, k⟩, t⟩ := e
  cases component with
  | none => exact ⟨Or.inr, fun h => h.resolve_left fun h => nomatch h.1⟩
  | some k' =>
    have hcons : (r.assignTo position (some k') type).assigned =
      ((position, k'), type) :: r.assigned := rfl
    rw [hcons, List.mem_cons, Prod.mk.injEq, Prod.mk.injEq, Option.some.injEq]
    exact or_congr_left ⟨fun h => ⟨h.1.2.symm, h.1.1, h.2⟩, fun h => ⟨⟨h.2.1, h.1.symm⟩, h.2.2⟩⟩

theorem assigned_beginObject : (beginObject s component base r).2.assigned =
    (r.assignTo s.position component (.named (claimedName s component base r))).assigned := by
  rw [beginObject_eq, Registry.beginType, Registry.assigned_setTypes]
  cases component <;> rfl

/-- A component is given the name under which its type is begun. -/
theorem gave_beginObject (hfixed : ∀ name ∈ fixedNames, name ∈ r.names.taken) {p : Position}
    {k name : String} :
    (beginObject s component base r).2.Gave p k name ↔
      (component = some k ∧ p = s.position ∧ name = claimedName s component base r) ∨
        r.Gave p k name := by
  have hfresh : claimedName s component base r ∉ fixedNames := fun h =>
    not_mem_taken_claimedName s component base r (hfixed _ h)
  unfold Registry.Gave
  rw [assigned_beginObject, mem_assigned_assignTo, TypeRef.named.injEq]
  constructor
  · rintro ⟨hnew | hold, hname⟩
    · exact Or.inl hnew
    · exact Or.inr ⟨hold, hname⟩
  · rintro (⟨hcomponent, hposition, rfl⟩ | ⟨hold, hname⟩)
    · exact ⟨Or.inl ⟨hcomponent, hposition, rfl⟩, hfresh⟩
    · exact ⟨Or.inr hold, hname⟩

theorem gave_endObject {t : Composite} {p : Position} {k name : String} :
    (endObject s component t r).2.Gave p k name ↔ r.Gave p k name := by
  unfold Registry.Gave
  by_cases hempty : t.members = []
  · have hjson : jsonName ∈ fixedNames := by decide
    have hdiscarded : ((r.discard s.position t.name).useJson).assigned = r.assigned :=
      Registry.assigned_setTypes ..
    rw [endObject_of_nil hempty, mem_assigned_assignTo, hdiscarded]
    refine and_congr_left fun hname => ⟨fun h => h.resolve_left fun h => ?_, Or.inr⟩
    exact hname (TypeRef.named.inj h.2.2 ▸ hjson)
  · rw [endObject_of_ne_nil hempty, Registry.finish, Registry.assigned_setTypes]

/-- A component that has been given a name has a type. -/
theorem has_of_gave {p : Position} {k name : String} (h : r.Gave p k name) : r.Has p k := by
  rw [Registry.Has, Registry.assigned?, Option.isSome_iff_ne_none, ne_eq,
    List.lookup_eq_none_iff]
  intro hnone
  simpa using hnone _ h.1

end Objects

namespace Registry.Credited

variable {c : Components} {s : Setting} {r r' : Registry}

theorem start (c : Components) : (Registry.start c.schemas.keys).Credited c := by
  have hnone : ∀ p k name, ¬ (Registry.start c.schemas.keys).Gave p k name := fun _ _ _ h =>
    absurd h.1 List.not_mem_nil
  refine ⟨rfl, fun _ h => h, fun p k name h => absurd h (hnone p k name),
    fun p k name h => absurd h (hnone p k name), fun p k name h => absurd h (hnone p k name),
    fun name p k _ _ h => absurd h (hnone p k name), fun p k name _ h => absurd h (hnone p k name),
    fun _ _ h => Or.inl h⟩

theorem congr (h : r.Credited c) (hnames : r'.names = r.names)
    (hgave : ∀ p k name, r'.Gave p k name ↔ r.Gave p k name) : r'.Credited c := by
  constructor
  case reserved => rw [hnames, h.reserved]
  case fixed => rw [hnames]; exact h.fixed
  case known => exact fun p k name hname => h.known p k name ((hgave p k name).mp hname)
  case taken =>
    rw [hnames]
    exact fun p k name hname => h.taken p k name ((hgave p k name).mp hname)
  case chosen =>
    rw [hnames]
    exact fun p k name hname => h.chosen p k name ((hgave p k name).mp hname)
  case owner =>
    exact fun name p k p' k' hname hname' =>
      h.owner name p k p' k' ((hgave p k name).mp hname) ((hgave p' k' name).mp hname')
  case single =>
    exact fun p k name name' hname hname' =>
      h.single p k name name' ((hgave p k name).mp hname) ((hgave p k name').mp hname')
  case kept =>
    rw [hnames]
    intro name hreserved htaken
    refine (h.kept name hreserved htaken).imp_right ?_
    rintro ⟨p, k, hname⟩
    exact ⟨p, k, (hgave p k name).mpr hname⟩

theorem beginObject (h : r.Credited s.components) {a : RefOr Schema} {component : Option String}
    {resolved : Schema} (hresolve : s.resolve a = .ok (component, resolved)) (hint : String)
    (hnew : component.bind (r.assigned? s.position) = none) :
    (beginObject s component (baseName component hint) r).2.Credited s.components := by
  have hfresh := not_mem_taken_claimedName s component (baseName component hint) r
  have hgave : ∀ p k name,
      (Generation.beginObject s component (baseName component hint) r).2.Gave p k name ↔
        (component = some k ∧ p = s.position ∧
          name = claimedName s component (baseName component hint) r) ∨ r.Gave p k name :=
    fun _ _ _ => gave_beginObject h.fixed
  constructor
  case reserved => rw [names_beginObject, h.reserved]
  case fixed =>
    rw [names_beginObject]
    exact fun name hname => List.mem_cons_of_mem _ (h.fixed name hname)
  case known =>
    intro p k name hname
    rcases (hgave p k name).mp hname with ⟨rfl, -, -⟩ | hold
    · exact List.mem_map_of_mem (Dictionary.mem_of_get? (get?_schemas_of_resolve hresolve))
    · exact h.known p k name hold
  case taken =>
    rw [names_beginObject]
    intro p k name hname
    rcases (hgave p k name).mp hname with ⟨-, -, rfl⟩ | hold
    · exact List.mem_cons_self ..
    · exact List.mem_cons_of_mem _ (h.taken p k name hold)
  case chosen =>
    rw [names_beginObject]
    intro p k name hname
    rcases (hgave p k name).mp hname with ⟨rfl, rfl, rfl⟩ | hold
    · obtain ⟨-, heq | ⟨j, hj, heq, -⟩⟩ :=
        NamePool.choose_spec r.names .component (s.position.preferred (typeName k))
      · exact Or.inl heq
      · by_cases hfree : r.names.isFree .component (s.position.preferred (typeName k)) = true
        · exact Or.inl (NamePool.choose_of_isFree hfree)
        · rw [NamePool.isFree_eq_true_iff] at hfree
          refine Or.inr ⟨List.mem_cons_of_mem _ ?_, j, hj, heq⟩
          by_contra hnot
          exact hfree ⟨hnot, fun heq => Claimant.noConfusion heq⟩
    · refine (h.chosen p k name hold).imp_right fun hnumbered => ?_
      exact ⟨List.mem_cons_of_mem _ hnumbered.1, hnumbered.2⟩
  case owner =>
    intro name p k p' k' hname hname'
    rcases (hgave p k name).mp hname with ⟨hk, hp, heq⟩ | hold <;>
      rcases (hgave p' k' name).mp hname' with ⟨hk', hp', heq'⟩ | hold'
    · exact ⟨hp.trans hp'.symm, Option.some.inj (hk.symm.trans hk')⟩
    · exact absurd (h.taken p' k' name hold') (heq ▸ hfresh)
    · exact absurd (h.taken p k name hold) (heq' ▸ hfresh)
    · exact h.owner name p k p' k' hold hold'
  case single =>
    have hfirst : ∀ k name, component = some k → ¬ r.Gave s.position k name := by
      rintro k name rfl hname
      have hhas := has_of_gave hname
      rw [Registry.Has, show r.assigned? s.position k = none from hnew] at hhas
      exact absurd hhas Bool.false_ne_true
    intro p k name name' hname hname'
    rcases (hgave p k name).mp hname with ⟨hk, hp, heq⟩ | hold <;>
      rcases (hgave p k name').mp hname' with ⟨hk', hp', heq'⟩ | hold'
    · exact heq.trans heq'.symm
    · exact absurd (hp ▸ hold') (hfirst k name' hk)
    · exact absurd (hp' ▸ hold) (hfirst k name hk')
    · exact h.single p k name name' hold hold'
  case kept =>
    rw [names_beginObject]
    intro name hreserved htaken
    rcases List.mem_cons.mp htaken with rfl | htaken
    · cases component with
      | some k => exact Or.inr ⟨s.position, k, (hgave _ _ _).mpr (Or.inl ⟨rfl, rfl, rfl⟩)⟩
      | none =>
        -- A schema without a name has stepped aside.
        have hfree := NamePool.isFree_choose r.names .inlined (s.position.preferred hint)
        exact absurd hreserved ((NamePool.isFree_eq_true_iff.mp hfree).2 rfl)
    · refine (h.kept name hreserved htaken).imp_right ?_
      rintro ⟨p, k, hname⟩
      exact ⟨p, k, (hgave p k name).mpr (Or.inr hname)⟩

theorem endObject (h : r.Credited c) {component : Option String} {t : Composite} :
    (endObject s component t r).2.Credited c :=
  h.congr (names_endObject t) fun _ _ _ => gave_endObject

end Registry.Credited

/-! ## Runs -/

section Types

variable {s : Setting}

mutual

theorem Makes.credited {schema : RefOr Schema} {hint : String} {r r' : Registry} {type : TypeRef}
    (hmakes : Makes s schema hint r type r') (h : r.Credited s.components) :
    r'.Credited s.components :=
  match hmakes with
  | .scalar _ _ => h
  | .json _ _ => h.congr rfl fun _ _ _ => Iff.rfl
  | .array _ _ hitem _ => hitem.credited h
  | .known _ _ _ => h
  | .new hresolve _ hnew hmembers =>
    (hmembers.credited (h.beginObject hresolve hint hnew)).endObject

theorem MakesMembers.credited {owner : String} {required : List String}
    {members members' : List InputValue} {properties : List (String × RefOr Schema)}
    {r r' : Registry}
    (hmakes : MakesMembers s owner required members properties r members' r')
    (h : r.Credited s.components) : r'.Credited s.components :=
  match hmakes with
  | .nil => h
  | .hidden _ _ hrest => hrest.credited h
  | .shown _ _ hmember _ hrest => hrest.credited (hmember.credited h)

end

end Types

variable {c : Components} {endpoints : List Endpoint} {roots : Roots} {r r' : Registry}

theorem Step.credited (h : Step c endpoints r r') (hcredited : r.Credited c) : r'.Credited c := by
  cases h with
  | answer _ _ h => exact h.credited hcredited
  | argument _ _ h => exact h.credited hcredited

theorem MakesFields.credited
    (hmakes : MakesFields c {} endpoints (.start c.schemas.keys) roots r) : r.Credited c :=
  keeps_of_steps (fun _ _ => Step.credited) hmakes.steps (.start c)

/-! ## Types of components -/

/-- The schema has a type of the name, and this is the type of the component wherever it is referred
to. -/
structure TypeNamed (c : Components) (endpoints : List Endpoint) (schema : GraphQL.Schema)
    (position : Position) (component name : String) : Prop where
  registered : ∃ members, (name, members) ∈ typesIn schema position
  placed : ∃ a type, Setting.RefersTo ⟨c, position⟩ a component ∧
    Place c endpoints schema position a type ∧ IsNamed type name
  places : ∀ a type, Setting.RefersTo ⟨c, position⟩ a component →
    Place c endpoints schema position a type → IsNamed type name

theorem IsNamed.leaf {type : TypeRef} {name : String} (h : IsNamed type name) :
    type.leaf = name := by
  rcases h with rfl | rfl <;> rfl

/-- The type of a component has one name. -/
theorem TypeNamed.unique {schema : GraphQL.Schema} {position : Position}
    {component name name' : String} (h : TypeNamed c endpoints schema position component name)
    (h' : TypeNamed c endpoints schema position component name') : name = name' := by
  obtain ⟨a, type, hrefers, hplace, hnamed⟩ := h.placed
  rw [← hnamed.leaf, ← (h'.places a type hrefers hplace).leaf]

/-- The type of a component has the name that it was given. -/
theorem MakesFields.exists_typeNamed
    (hmakes : MakesFields c {} endpoints (.start c.schemas.keys) roots r) {position : Position}
    {b : RefOr Schema} {type : TypeRef} {component : String} {resolved : Schema}
    {properties : List (String × RefOr Schema)} {required : List String}
    (hplace : Place c endpoints (assemble roots r) position b type)
    (hresolve : Setting.resolve ⟨c, position⟩ b = .ok (some component, resolved))
    (hkind : resolved.kind = .object properties required)
    (hvisible : Setting.visible ⟨c, position⟩ properties ≠ []) :
    ∃ name, r.Gave position component name ∧
      TypeNamed c endpoints (assemble roots r) position component name := by
  obtain ⟨name, members, hfilter, -, hplaces⟩ :=
    (hmakes.componentTypes hplace hresolve hkind).shown hvisible
  have hnamed := hplaces b type ⟨_, hresolve⟩ hplace
  have hregistered : (name, members) ∈ typesIn (assemble roots r) position :=
    List.mem_of_mem_filter (hfilter ▸ List.mem_singleton_self (name, members))
  refine ⟨name, ?_, ⟨members, hregistered⟩, ⟨b, type, ⟨_, hresolve⟩, hplace, hnamed⟩, hplaces⟩
  obtain ⟨made, _, rfl, hmade⟩ := hplace.typeFor hmakes
  have hassigned := hmade.assigned hresolve hkind hvisible
  have hobject := hmade.of_object hmakes.allDone hresolve hkind
  cases hobject with
  | hidden hnone => exact absurd hnone hvisible
  | @shown _ _ t _ ht _ =>
    have hname : t.name = name := by
      rw [← hnamed.leaf, leaf_excludeNullIf]
      rfl
    have hfinished : t.name ∈ r.finishedNames position :=
      List.mem_map_of_mem (mem_finished_of_registered? ht)
    rw [← hname]
    exact ⟨Registry.mem_assigned_of_assigned? hassigned,
      (sound_of_makesFields hmakes).1.not_mem_fixedNames hfinished⟩

/-- A component that is met has a type of its own name exactly if that is a name that is handed out,
and no other component was given it.  One that was given it prefers this name too, or got it as a
numbered one. -/
theorem typeNamed_iff {j : Json} {d : OpenApi.Document} {schema : GraphQL.Schema}
    (hschema : schemaOf j = .ok schema) (hdocument : documentOf j = .ok d)
    (hendpoints : d.endpoints = .ok endpoints) {e : Endpoint} (he : e ∈ endpoints)
    {position : Position} {a b : RefOr Schema} (hworks : WorksOn e position a)
    (hinside : Inside ⟨d.components, position⟩ a b) {component own : String} {resolved : Schema}
    (hresolve : Setting.resolve ⟨d.components, position⟩ b = .ok (some component, resolved))
    {properties : List (String × RefOr Schema)} {required : List String}
    (hkind : resolved.kind = .object properties required)
    (hvisible : Setting.visible ⟨d.components, position⟩ properties ≠ [])
    (hown : own = position.preferred (typeName component)) :
    ∃ roots r,
      rootFields d.components {} endpoints (.start d.components.schemas.keys) = .ok (roots, r) ∧
      (TypeNamed d.components endpoints schema position component own ↔
        own ∉ fixedNames ∧ ∀ p k, r.Gave p k own → p = position ∧ k = component) ∧
      ∀ p k, r.Gave p k own → k ∈ d.components.schemas.keys ∧
        IsVariant (p.preferred (typeName k)) own := by
  obtain ⟨d', endpoints', roots, r, hdocument', hendpoints', hroots, rfl, -⟩ :=
    rootFields_of_schemaOf hschema
  obtain rfl := Except.ok.inj (hdocument'.symm.trans hdocument)
  obtain rfl := Except.ok.inj (hendpoints'.symm.trans hendpoints)
  have hmakes := makes_of_rootFields hroots
  have hcredited := hmakes.credited
  obtain ⟨_, hroot⟩ := exists_place_of_worksOn hmakes he hworks
  obtain ⟨_, hplace⟩ := exists_place_of_inside hmakes hinside hroot
  obtain ⟨name, hgave, hnamed⟩ := hmakes.exists_typeNamed hplace hresolve hkind hvisible
  refine ⟨roots, r, hroots, ⟨fun h => ?_, fun ⟨hfixed, honly⟩ => ?_⟩, fun p k h => ?_⟩
  · obtain rfl := hnamed.unique h
    exact ⟨hgave.2, fun p k h => hcredited.owner name p k position component h hgave⟩
  · rcases hcredited.chosen position component name hgave with heq | ⟨htaken, -⟩
    · rw [hown, ← heq]
      exact hnamed
    · -- The own name was taken, and only the component itself can have taken it.
      have hreserved : own ∈ r.names.reserved := by
        rw [hcredited.reserved]
        exact NamePool.mem_reserved_start.mpr
          ⟨component, hcredited.known position component name hgave, position, hown⟩
      rw [← hown] at htaken
      rcases hcredited.kept own hreserved htaken with hmem | ⟨p, k, h⟩
      · exact absurd hmem hfixed
      · obtain ⟨rfl, rfl⟩ := honly p k h
        rw [hcredited.single p k own name h hgave]
        exact hnamed
  · exact ⟨hcredited.known p k own h, (hcredited.chosen p k own h).imp_right And.right⟩

/-- A document in which pets are stored, and drafts of them are read that are called after the input
of pets. -/
def draftDocument : Json :=
  .object [("openapi", .string "3.0.0"),
    ("info", .object [("title", .string "Pets"), ("version", .string "1")]),
    ("paths", .object [
      ("/pets", .object [("post", .object [("requestBody", .object [("content",
        .object [("application/json", .object [("schema",
          .object [("$ref", .string "#/components/schemas/Pet")])])])]),
        ("responses", .object [])])]),
      ("/drafts", .object [("get", .object [("responses", .object [("200",
        .object [("description", .string "The draft"), ("content", .object [("application/json",
          .object [("schema",
            .object [("$ref", .string "#/components/schemas/PetInput")])])])])])])])]),
    ("components", .object [("schemas", .object [
      ("Pet", .object [("type", .string "object"), ("properties", .object [
        ("name", .object [("type", .string "string")])])]),
      ("PetInput", .object [("type", .string "object"), ("properties", .object [
        ("note", .object [("type", .string "string")])])])])])]

def draftSchema : GraphQL.Schema :=
  { objects := [
      { name := "Query", fields := [{ name := "drafts", type := .named "PetInput2" }] },
      { name := "Mutation", fields := [{ name := "postPets", type := .named "String"
                                         arguments := [{ name := "petInput"
                                                         type := .named "PetInput" }] }] },
      { name := "PetInput2", fields := [{ name := "note", type := .named "String" }] }]
    inputs := [{ name := "PetInput", fields := [{ name := "name", type := .named "String" }] }]
    usesJson := false
    hasMutation := true }

def draftProperties : List (String × RefOr Schema) :=
  [("note", .item (.mk {} .string))]

def draftComponents : Components :=
  { schemas := [("Pet", .item (.mk {} (.object [("name", .item (.mk {} .string))] []))),
      ("PetInput", .item (.mk {} (.object draftProperties [])))] }

def draftPaths : List (String × RefOr OpenApi.PathItem) :=
  [("/pets", .item { operations := [(.post, { requestBody := some (.item
      { content := [("application/json", some (.reference "#/components/schemas/Pet"))]
        required := false }) })] }),
    ("/drafts", .item { operations := [(.get, { responses := [(.code 200, .item
      { content := [("application/json",
          some (.reference "#/components/schemas/PetInput"))] })] })] })]

/-- The draft is read, after a pet has been stored. -/
def draftEndpoints : List Endpoint :=
  [{ path := "/pets", method := .post
     body := some { component := none, schema := .reference "#/components/schemas/Pet"
                    required := false } },
    { path := "/drafts", method := .get
      response := some (.reference "#/components/schemas/PetInput") }]

theorem typeNamed_petInput :
    schemaOf draftDocument = .ok draftSchema ∧
      (∀ other ∈ draftComponents.schemas.keys, other ≠ "PetInput" →
        typeName other ≠ typeName "PetInput") ∧
      typeName "PetInput" ∉ fixedNames ∧
      ¬ TypeNamed draftComponents draftEndpoints draftSchema .output "PetInput"
        (typeName "PetInput") := by
  have hschema : schemaOf draftDocument = .ok draftSchema := by decide +kernel
  have hdocument : documentOf draftDocument = .ok ⟨draftComponents, draftPaths⟩ := rfl
  have hown : typeName "PetInput" = "PetInput" := by decide +kernel
  refine ⟨hschema, by decide +kernel, by decide +kernel, fun hnamed => ?_⟩
  have hendpoints : (⟨draftComponents, draftPaths⟩ : OpenApi.Document).endpoints =
      .ok draftEndpoints := rfl
  have hresolve : Setting.resolve ⟨draftComponents, .output⟩
      (.reference "#/components/schemas/PetInput") =
        .ok (some "PetInput", .mk {} (.object draftProperties [])) := rfl
  obtain ⟨roots, r, hroots, hiff, -⟩ := typeNamed_iff hschema hdocument hendpoints
    (List.mem_cons_of_mem _ (List.mem_singleton_self _)) (.response rfl) (.refl _) hresolve rfl
    (List.cons_ne_nil _ _) rfl
  -- The input type of the pet was given the name.
  have hgiven : (rootFields draftComponents {} draftEndpoints
      (.start draftComponents.schemas.keys)).map (fun run => run.2.assigned) =
        .ok [((.output, "PetInput"), .named "PetInput2"),
          ((.input, "Pet"), .named "PetInput")] := by decide +kernel
  rw [hroots] at hgiven
  have hpet : r.Gave .input "Pet" (typeName "PetInput") := by
    rw [hown]
    refine ⟨?_, by decide⟩
    have hassigned : r.assigned =
        [((.output, "PetInput"), .named "PetInput2"), ((.input, "Pet"), .named "PetInput")] :=
      Except.ok.inj hgiven
    rw [hassigned]
    exact List.mem_cons_of_mem _ (List.mem_singleton_self _)
  exact nomatch ((hiff.mp hnamed).2 .input "Pet" hpet).1

end ApiGraph.Generation
