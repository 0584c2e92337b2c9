import ApiGraph.Proofs.Generation.Places
import ApiGraph.Proofs.Generation.Shapes

/-!
# Documents that grow

A document may get further paths behind those that it has.  Its endpoints are then followed by the
new ones, so a run over them begins with the run over the old ones, and from there on the registry
is only added to: what is registered stays as it is, and so does the type of every component.
Fields of the new endpoints come behind the old fields of their root.

* `document_appendPaths`: the longer document has the same components, and further paths at the end.
* `preserves_of_endpointField`: an endpoint that becomes a field changes nothing that was registered
  or assigned before.
* `grows_appendPaths`: the schema of the longer document has everything that the schema of the
  shorter one has.
* `grows_kennels`: a kennel is added to a document about pets.
-/

namespace ApiGraph

/-- The value with further members behind those of its member `paths`. -/
def Json.appendPaths (more : List (String × Json)) : Json → Json
  | .object members =>
    .object (members.map fun (key, v) =>
      (key, if key == "paths" then .object (v.members ++ more) else v))
  | j => j

theorem Dictionary.get?_map {α β : Type} (f : String → α → β) (d : Dictionary α) (key : String) :
    Dictionary.get? (d.map fun p => (p.1, f p.1 p.2)) key = (d.get? key).map (f key) := by
  induction d with
  | nil => rfl
  | cons p rest ih =>
    obtain ⟨k, v⟩ := p
    by_cases h : k = key
    · subst h
      simp [get?]
    · simp only [List.map_cons, get?, beq_iff_eq, h, if_false]
      exact ih

theorem Json.member?_appendPaths (more : List (String × Json)) (j : Json) (key : String) :
    (j.appendPaths more).member? key =
      (j.member? key).map fun v => if key == "paths" then .object (v.members ++ more) else v := by
  cases j with
  | object members =>
    exact Dictionary.get?_map
      (fun key v => if key == "paths" then .object (v.members ++ more) else v) members key
  | null | bool _ | number _ | string _ | array _ => rfl

namespace Generation

open ApiGraph.GraphQL hiding Schema
open ApiGraph.OpenApi (RefOr Components Document Endpoint)

/-! ## Longer documents -/

/-- The longer document has the same components, and further paths at the end. -/
theorem document_appendPaths (more : List (String × Json)) (j : Json) :
    ∃ new, OpenApi.Reader.document (j.appendPaths more) =
      { components := (OpenApi.Reader.document j).components
        paths := (OpenApi.Reader.document j).paths ++ new } := by
  have hcomponents : (j.appendPaths more).member? "components" = j.member? "components" := by
    rw [Json.member?_appendPaths]
    cases j.member? "components" <;> rfl
  have hpaths : ∃ added, OpenApi.Reader.membersAt (j.appendPaths more) "paths" =
      OpenApi.Reader.membersAt j "paths" ++ added := by
    unfold OpenApi.Reader.membersAt
    rw [Json.member?_appendPaths]
    cases j.member? "paths" with
    | none => exact ⟨[], rfl⟩
    | some v => exact ⟨more, rfl⟩
  obtain ⟨added, hadded⟩ := hpaths
  unfold OpenApi.Reader.document OpenApi.Reader.member?
  rw [hcomponents, hadded, List.filter_append, List.map_append]
  exact ⟨_, rfl⟩

theorem document_of_documentOf {j : Json} {d : Document} (h : documentOf j = .ok d) :
    d = OpenApi.Reader.document j := by
  unfold documentOf at h
  split at h
  · exact nomatch h
  split at h
  · exact nomatch h
  split at h
  · split at h
    · rename_i hread
      obtain rfl := Except.ok.inj h
      unfold Document.read? at hread
      split at hread
      · exact (Option.some.inj hread).symm
      · exact nomatch hread
    · exact nomatch h
  · exact nomatch h

/-- The endpoints on the first paths come first. -/
theorem endpointsOn_append {c : Components} {paths new : List (String × RefOr OpenApi.PathItem)}
    {endpoints : List Endpoint} (h : OpenApi.endpointsOn c (paths ++ new) = .ok endpoints) :
    ∃ first rest, OpenApi.endpointsOn c paths = .ok first ∧ endpoints = first ++ rest := by
  induction paths generalizing endpoints with
  | nil => exact ⟨[], endpoints, rfl, rfl⟩
  | cons head paths ih =>
    obtain ⟨path, item⟩ := head
    cases item with
    | reference target => exact nomatch h
    | item item =>
      obtain ⟨here, hhere, h⟩ := bind_eq_ok.mp h
      obtain ⟨behind, hbehind, h⟩ := bind_eq_ok.mp h
      obtain rfl := Except.ok.inj h
      obtain ⟨first, rest, hfirst, rfl⟩ := ih hbehind
      refine ⟨here ++ first, rest, ?_, (List.append_assoc ..).symm⟩
      exact bind_eq_ok.mpr ⟨here, hhere, bind_eq_ok.mpr ⟨first, hfirst, rfl⟩⟩

/-! ## Longer runs -/

variable {c : Components} {r r' : Registry} {roots roots' : Roots}

/-- A run over more endpoints goes on where the run over the first ones ends. -/
theorem rootFields_append {first rest : List Endpoint}
    (h : rootFields c roots (first ++ rest) r = .ok (roots', r')) :
    ∃ roots₁ r₁, rootFields c roots first r = .ok (roots₁, r₁) ∧
      rootFields c roots₁ rest r₁ = .ok (roots', r') := by
  induction first generalizing roots r with
  | nil => exact ⟨roots, r, rfl, h⟩
  | cons e first ih =>
    obtain ⟨⟨f, r₁⟩, hfield, h⟩ := bind_eq_ok.mp h
    obtain ⟨roots₁, hadd, h⟩ := bind_eq_ok.mp h
    obtain ⟨roots₂, r₂, hfirst, hrest⟩ := ih h
    exact ⟨roots₂, r₂, bind_eq_ok.mpr ⟨_, hfield, bind_eq_ok.mpr ⟨_, hadd, hfirst⟩⟩, hrest⟩

/-- New fields come behind those that a root has. -/
theorem MakesFields.append_fields {endpoints : List Endpoint}
    (hmakes : MakesFields c roots endpoints r roots' r') :
    (∃ more, roots'.query = roots.query ++ more) ∧
      ∃ more, roots'.mutation = roots.mutation ++ more := by
  induction hmakes with
  | nil => exact ⟨⟨[], (List.append_nil _).symm⟩, ⟨[], (List.append_nil _).symm⟩⟩
  | cons _ _ _ ih =>
    obtain ⟨⟨query, hquery⟩, ⟨mutation, hmutation⟩⟩ := ih
    rw [query_push, List.append_assoc] at hquery
    rw [mutation_push, List.append_assoc] at hmutation
    exact ⟨⟨_, hquery⟩, ⟨_, hmutation⟩⟩

/-! ## What is kept -/

/-- Under all names that were registered the same is registered, and every component that had a
type has it still. -/
structure Registry.Preserves (r r' : Registry) : Prop where
  registered : ∀ position name entry, r.registered? position name = some entry →
    r'.registered? position name = some entry
  assigned : ∀ position component type, r.assigned? position component = some type →
    r'.assigned? position component = some type

theorem Registry.Extends.preserves (h : r.Extends r') (hwell : r.WellNamed) : r.Preserves r' := by
  refine ⟨fun position name entry hentry => ?_, h.assigned⟩
  rw [h.registered position name (hwell.mem_taken hentry), hentry]

theorem Step.extends {endpoints : List Endpoint} (h : Step c endpoints r r') : r.Extends r' := by
  cases h with
  | answer _ _ hmakes => exact hmakes.extends
  | argument _ _ hmakes => exact hmakes.extends

theorem extends_of_steps {endpoints : List Endpoint}
    (h : Relation.ReflTransGen (Step c endpoints) r r') : r.Extends r' :=
  keeps_of_steps (fun _ _ hstep hextends => hextends.trans hstep.extends) h (.refl r)

/-- An endpoint that becomes a field changes nothing that is there. -/
theorem preserves_of_endpointField {e : Endpoint} {f : Field} (hr : Reachable c r)
    (h : endpointField c e r = .ok (f, r')) : r.Preserves r' := by
  have hsteps := (makes_of_endpointField h).steps (List.mem_singleton_self e)
  exact (extends_of_steps hsteps).preserves hr.shaped.wellNamed

/-- The second schema has all types of the first one.  Roots may have more fields, behind those that
they have in the first schema; all other types are the same. -/
structure Grows (schema schema' : GraphQL.Schema) : Prop where
  roots : ∀ o ∈ schema.objects, o.name = queryName ∨ o.name = mutationName →
    ∃ more, { o with fields := o.fields ++ more } ∈ schema'.objects
  objects : ∀ o ∈ schema.objects, o.name ≠ queryName → o.name ≠ mutationName → o ∈ schema'.objects
  inputs : ∀ i ∈ schema.inputs, i ∈ schema'.inputs

theorem registered?_of_mem_finished (hwell : r.WellNamed) {position : Position} {t : Composite}
    (h : t ∈ finished (r.types position)) : r.registered? position t.name = some (some t) := by
  obtain ⟨⟨name, entry⟩, hmem, rfl⟩ := mem_finished h
  rw [hwell.name position _ hmem t rfl]
  exact Dictionary.get?_of_mem (hwell.nodup position) hmem

/-- Types that are finished remain. -/
theorem Registry.Preserves.finished_subset (h : r.Preserves r') (hwell : r.WellNamed)
    (position : Position) : finished (r.types position) ⊆ finished (r'.types position) := by
  intro t ht
  exact mem_finished_of_registered?
    (h.registered position t.name _ (registered?_of_mem_finished hwell ht))

/-- Roots with more fields have the fields that they had at the beginning. -/
theorem exists_root_of_append {query mutation : List Field} (hsome : roots.query ≠ [])
    (hquery : roots'.query = roots.query ++ query)
    (hmutation : roots'.mutation = roots.mutation ++ mutation) {o : ObjectType}
    (ho : o ∈ roots.objects) :
    (o.name = queryName ∨ o.name = mutationName) ∧
      ∃ more, { o with fields := o.fields ++ more } ∈ roots'.objects := by
  rcases List.mem_cons.mp ho with rfl | ho
  · have hfields : roots.queryFields = roots.query := if_neg (by simpa using hsome)
    have hfields' : roots'.queryFields = roots.query ++ query := by
      rw [← hquery]
      refine if_neg ?_
      simp [hquery, hsome]
    refine ⟨Or.inl rfl, query, List.mem_cons.mpr (Or.inl ?_)⟩
    rw [hfields, hfields']
  · split at ho
    · exact absurd ho List.not_mem_nil
    · rename_i hempty
      obtain rfl := List.mem_singleton.mp ho
      refine ⟨Or.inr rfl, mutation, List.mem_cons_of_mem _ ?_⟩
      have hempty' : ¬ roots'.mutation.isEmpty = true := by
        simp only [List.isEmpty_iff] at hempty ⊢
        simp [hmutation, hempty]
      rw [if_neg hempty', ← hmutation]
      exact List.mem_singleton_self _

theorem grows_assemble {query mutation : List Field} (hsome : roots.query ≠ [])
    (hquery : roots'.query = roots.query ++ query)
    (hmutation : roots'.mutation = roots.mutation ++ mutation) (hwell : r.WellNamed)
    (hpreserves : r.Preserves r') : Grows (assemble roots r) (assemble roots' r') := by
  have hobjects : ∀ o ∈ (finished r.objects).map (·.toObject),
      o ∈ (assemble roots' r').objects := by
    intro o ho
    rw [objects_assemble]
    have hsubset := hpreserves.finished_subset hwell .output
    exact List.mem_append_right _ (List.map_subset _ hsubset ho)
  constructor
  case roots =>
    intro o ho _
    rw [objects_assemble] at ho
    rcases List.mem_append.mp ho with ho | ho
    · obtain ⟨-, more, hmem⟩ := exists_root_of_append hsome hquery hmutation ho
      refine ⟨more, ?_⟩
      rw [objects_assemble]
      exact List.mem_append_left _ hmem
    · refine ⟨[], ?_⟩
      rw [List.append_nil]
      exact hobjects o ho
  case objects =>
    intro o ho hnotQuery hnotMutation
    rw [objects_assemble] at ho
    rcases List.mem_append.mp ho with ho | ho
    · obtain ⟨hname, -⟩ := exists_root_of_append hsome hquery hmutation ho
      exact absurd hname (not_or.mpr ⟨hnotQuery, hnotMutation⟩)
    · exact hobjects o ho
  case inputs =>
    intro i hi
    exact List.map_subset _ (hpreserves.finished_subset hwell .input) hi

/-- When paths are added to a document that has a read operation, its schema grows; and at no
endpoint is anything changed that is there already. -/
theorem grows_appendPaths :
    (∀ (j : Json) (more : List (String × Json)) (d : Document) (endpoints : List Endpoint)
      (schema schema' : GraphQL.Schema), documentOf j = .ok d → d.endpoints = .ok endpoints →
      (∃ e ∈ endpoints, e.isQuery = true) → schemaOf j = .ok schema →
        schemaOf (j.appendPaths more) = .ok schema' → Grows schema schema') ∧
      ∀ (c : Components) (e : Endpoint) (f : Field) (r r' : Registry), Reachable c r →
        endpointField c e r = .ok (f, r') → r.Preserves r' := by
  constructor
  · intro j more d endpoints schema schema' hdocument hendpoints hget hschema hschema'
    obtain ⟨d₁, endpoints₁, roots, r, hdocument₁, hendpoints₁, hrun, rfl, -⟩ :=
      rootFields_of_schemaOf hschema
    obtain ⟨d', endpoints', roots', r', hdocument', hendpoints', hrun', rfl, -⟩ :=
      rootFields_of_schemaOf hschema'
    obtain rfl := Except.ok.inj (hdocument₁.symm.trans hdocument)
    obtain rfl := Except.ok.inj (hendpoints₁.symm.trans hendpoints)
    -- The run over the longer document begins with the run over the shorter one.
    obtain ⟨new, hnew⟩ := document_appendPaths more j
    rw [← document_of_documentOf hdocument, ← document_of_documentOf hdocument'] at hnew
    obtain rfl := hnew
    obtain ⟨first, rest, hfirst, rfl⟩ := endpointsOn_append hendpoints'
    obtain rfl := Except.ok.inj (hfirst.symm.trans hendpoints)
    obtain ⟨roots₁, r₁, hrun₁, hrest⟩ := rootFields_append hrun'
    obtain ⟨rfl, rfl⟩ := Prod.mk.inj (Except.ok.inj (hrun₁.symm.trans hrun))
    have hmakes := makes_of_rootFields hrun
    have hmore := makes_of_rootFields hrest
    obtain ⟨hbuilt, hfields⟩ := hmakes.built (.start _)
    obtain ⟨⟨query, hquery⟩, ⟨mutation, hmutation⟩⟩ := hmore.append_fields
    obtain ⟨e, he, hisQuery⟩ := hget
    obtain ⟨f, hf, -⟩ := hfields e he
    rw [Roots.fieldsFor, if_pos hisQuery] at hf
    have hpreserves := (extends_of_steps hmore.steps).preserves hbuilt.wellNamed
    exact grows_assemble (List.ne_nil_of_mem hf) hquery hmutation hbuilt.wellNamed hpreserves
  · intro c e f r r' hr h
    exact preserves_of_endpointField hr h

/-- Kennels in which pets live, which can be asked for and added. -/
def kennelPaths : List (String × Json) :=
  let kennel : Json := .object [("schema", .object [("type", .string "object"),
    ("properties", .object [("guest", .object [("$ref", .string "#/components/schemas/Pet")])])])]
  let content : Json := .object [("application/json", kennel)]
  [("/kennels", .object [
    ("post", .object [("requestBody", .object [("content", content)]), ("responses", .object [])]),
    ("get", .object [("responses", .object [("200",
      .object [("description", .string "A kennel"), ("content", content)])])])])]

def kennelSchema : GraphQL.Schema :=
  { objects := [
      { name := "Query", fields := [{ name := "pets", type := .list (.nonNull (.named "Pet")) },
        { name := "kennels", type := .named "Kennels" }] },
      { name := "Mutation", fields := [{ name := "postKennels", type := .named "String"
                                         arguments := [{ name := "postKennelsInput"
                                                         type := .named "PostKennelsInput" }] }] },
      { name := "Pet", fields := [{ name := "name", type := .nonNull (.named "String") },
        { name := "owner", type := .named "Owner" }] },
      { name := "Owner", fields := [{ name := "firstPet", type := .nonNull (.named "Pet") }] },
      { name := "Kennels", fields := [{ name := "guest", type := .named "Pet" }] }]
    inputs := [
      { name := "PostKennelsInput", fields := [{ name := "guest", type := .named "PetInput" }] },
      { name := "PetInput", fields := [{ name := "name", type := .nonNull (.named "String") },
        { name := "owner", type := .named "OwnerInput" }] },
      { name := "OwnerInput", fields := [{ name := "pin", type := .named "String" },
        { name := "firstPet", type := .nonNull (.named "PetInput") }] }]
    usesJson := false
    hasMutation := true }

/-- With kennels the schema of pets and owners grows; and their field was made without a change to
what was registered for pets. -/
theorem grows_kennels :
    schemaOf familyDocument = .ok familySchema ∧
      schemaOf (familyDocument.appendPaths kennelPaths) = .ok kennelSchema ∧
      Grows familySchema kennelSchema ∧
      ∃ f r, endpointField familyComponents familyEndpoint (.start ["Pet", "Owner"]) = .ok (f, r) ∧
        (Registry.start ["Pet", "Owner"]).Preserves r := by
  have hschema : schemaOf familyDocument = .ok familySchema := by decide +kernel
  have hschema' : schemaOf (familyDocument.appendPaths kennelPaths) = .ok kennelSchema := by
    decide +kernel
  have hdocument : documentOf familyDocument = .ok
      { components := familyComponents
        paths := [("/pets", .item { operations := [(.get, { responses := [(.code 200, .item
          { content := [("application/json", some familyResponse)] })] })] })] } := rfl
  have hget : ∃ e ∈ [familyEndpoint], e.isQuery = true :=
    ⟨familyEndpoint, List.mem_singleton_self _, rfl⟩
  have hgrows := grows_appendPaths.1 familyDocument kennelPaths _ _ familySchema kennelSchema
    hdocument rfl hget hschema hschema'
  refine ⟨hschema, hschema', hgrows, ?_⟩
  obtain ⟨⟨f, r⟩, hfield⟩ : ∃ made,
      endpointField familyComponents familyEndpoint (.start ["Pet", "Owner"]) = .ok made := ⟨_, rfl⟩
  exact ⟨f, r, hfield, grows_appendPaths.2 familyComponents familyEndpoint f _ r .start hfield⟩

end Generation

end ApiGraph
