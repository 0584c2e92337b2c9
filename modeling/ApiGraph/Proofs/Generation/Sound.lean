import ApiGraph.Proofs.Generation.Fields
import ApiGraph.Proofs.Generation.Registry
import ApiGraph.Proofs.Sdl.Printable

/-!
# Generated schemas can be printed

Whatever a document is called, describes and refers to, the types made from it have names of GraphQL
that are neither those of the roots nor `JSON`, they have members, and the members have printable
types: `Registry.Sound`.  Every rule of `Makes` preserves this.

* `Makes.sound`, `MakesFields.sound`: the rules preserve this.
* `MakesSchema.printable`: a generated schema is printable.
-/

namespace ApiGraph.Generation

open ApiGraph.GraphQL hiding Schema
open ApiGraph.OpenApi (RefOr Schema Components Endpoint EndpointParameter EndpointBody)

/-- The names that are never handed out. -/
def fixedNames : List String := [queryName, mutationName, jsonName]

/-- A type as it is made for a schema: whether null is excluded depends on where it is used. -/
structure MadeType (t : TypeRef) : Prop where
  printable : t.Printable
  nullable : t.excludesNull = false

theorem MadeType.of_isName {name : String} (h : isName name = true) : MadeType (.named name) :=
  ⟨h, rfl⟩

theorem madeType_json : MadeType jsonType :=
  .of_isName rfl

theorem MadeType.excludeNullIf {t : TypeRef} (h : MadeType t) (condition : Bool) :
    (t.excludeNullIf condition).Printable := by
  obtain ⟨hprintable, hnullable⟩ := h
  cases t with
  | nonNull inner => exact absurd hnullable (by simp [TypeRef.excludesNull])
  | named name =>
    cases condition with
    | false => exact hprintable
    | true => exact ⟨hprintable, rfl⟩
  | list item =>
    cases condition with
    | false => exact hprintable
    | true => exact ⟨hprintable, rfl⟩

/-! ## Registries -/

structure Composite.Sound (t : Composite) : Prop where
  name : isName t.name = true
  name_free : t.name ∉ fixedNames
  members : ∀ m ∈ t.members, m.Printable
  members_ne_nil : t.members ≠ []

structure Registry.Sound (r : Registry) : Prop where
  taken : ∀ name ∈ fixedNames, name ∈ r.names.taken
  assigned : ∀ e ∈ r.assigned, MadeType e.2
  types : ∀ position, ∀ e ∈ r.types position, ∀ t, e.2 = some t → t.Sound

namespace Registry.Sound

variable {r : Registry}

theorem start (components : List String) : (Registry.start components).Sound := by
  refine ⟨fun name h => h, fun e h => absurd h List.not_mem_nil, fun position e h => ?_⟩
  cases position <;> exact absurd h List.not_mem_nil

theorem useJson (h : r.Sound) : r.useJson.Sound :=
  ⟨h.taken, h.assigned, fun position e he => h.types position e (by simpa using he)⟩

theorem assign (h : r.Sound) (position : Position) (c : String) {type : TypeRef}
    (htype : MadeType type) : (r.assign position c type).Sound := by
  refine ⟨h.taken, fun e he => ?_, fun p e he => h.types p e (by simpa using he)⟩
  rcases List.mem_cons.mp he with rfl | he
  · exact htype
  · exact h.assigned e he

theorem assignTo (h : r.Sound) (position : Position) (component : Option String) {type : TypeRef}
    (htype : MadeType type) : (r.assignTo position component type).Sound := by
  cases component with
  | none => exact h
  | some c => exact h.assign position c htype

theorem setTypes (h : r.Sound) {position : Position} {types : Dictionary (Option Composite)}
    (htypes : ∀ e ∈ types, ∀ t, e.2 = some t → t.Sound) : (r.setTypes position types).Sound := by
  refine ⟨?_, ?_, fun p e he => ?_⟩
  · rw [names_setTypes]
    exact h.taken
  · rw [assigned_setTypes]
    exact h.assigned
  · rcases mem_types_setTypes he with he | he
    · exact htypes e he
    · exact h.types p e he

theorem beginType (h : r.Sound) (position : Position) (name : String) :
    (r.beginType position name).Sound := by
  refine h.setTypes fun e he t ht => ?_
  rcases Dictionary.mem_put he with rfl | he
  · exact nomatch ht
  · exact h.types position e he t ht

theorem finish (h : r.Sound) (position : Position) {type : Composite} (htype : type.Sound) :
    (r.finish position type).Sound := by
  refine h.setTypes fun e he t ht => ?_
  rcases Dictionary.mem_put he with rfl | he
  · rw [← Option.some.inj ht]
    exact htype
  · exact h.types position e he t ht

theorem discard (h : r.Sound) (position : Position) (name : String) :
    (r.discard position name).Sound :=
  h.setTypes fun e he => h.types position e (List.mem_of_mem_filter he)

end Registry.Sound

/-! ## Objects -/

section Objects

variable {s : Setting} {component : Option String} {base : String} {r : Registry}

theorem claimedName_not_mem_fixedNames (h : r.Sound) :
    claimedName s component base r ∉ fixedNames :=
  fun hmem => not_mem_taken_claimedName s component base r (h.taken _ hmem)

theorem Registry.Sound.beginObject (h : r.Sound) (hbase : isName base = true) :
    (beginObject s component base r).2.Sound := by
  have hclaimed : (claimedRegistry s component base r).Sound := by
    refine ⟨fun name hname => List.mem_cons_of_mem _ (h.taken name hname), h.assigned, fun p => ?_⟩
    rw [types_claimedRegistry]
    exact h.types p
  have hname := isName_claimedName s component r hbase
  rw [beginObject_eq]
  exact (hclaimed.assignTo s.position component (.of_isName hname)).beginType s.position _

theorem sound_endObject (h : r.Sound) {type : Composite} (hname : isName type.name = true)
    (hfree : type.name ∉ fixedNames) (hmembers : ∀ m ∈ type.members, m.Printable) :
    (endObject s component type r).2.Sound ∧ MadeType (endObject s component type r).1 := by
  by_cases hempty : type.members = []
  · rw [endObject_of_nil hempty]
    have hdiscarded := (h.discard s.position type.name).useJson
    exact ⟨hdiscarded.assignTo s.position component madeType_json, madeType_json⟩
  · rw [endObject_of_ne_nil hempty]
    exact ⟨h.finish s.position ⟨hname, hfree, hmembers, hempty⟩, .of_isName hname⟩

end Objects

/-! ## Types -/

variable {s : Setting}

theorem isName_of_scalarName? {σ : Type} {kind : OpenApi.SchemaKind σ} {name : String}
    (h : scalarName? kind = some name) : isName name = true := by
  cases kind with
  | string | integer | number | boolean =>
    rw [← Option.some.inj h]
    rfl
  | array _ | object _ _ | any => exact nomatch h

theorem printable_memberFor (property : String) (required : List String) (resolved : Schema)
    {type : TypeRef} (h : MadeType type) :
    (memberFor property required resolved type).Printable :=
  ⟨isName_fieldName property, h.excludeNullIf _⟩

mutual

theorem Makes.sound {schema : RefOr Schema} {hint : String} {r r' : Registry} {type : TypeRef}
    (hmakes : Makes s schema hint r type r') (hhint : isName hint = true) (h : r.Sound) :
    r'.Sound ∧ MadeType type :=
  match hmakes with
  | .scalar _ hkind => ⟨h, .of_isName (isName_of_scalarName? hkind)⟩
  | .json _ _ => ⟨h.useJson, madeType_json⟩
  | .array _ _ hitem _ =>
    have hmade := hitem.sound (isName_itemHint (isName_baseName _ hhint)) h
    ⟨hmade.1, hmade.2.excludeNullIf _, rfl⟩
  | .known _ _ hknown => ⟨h, h.assigned _ (Registry.mem_assigned_of_assigned? hknown)⟩
  | .new _ _ _ hmembers => by
    have hbase : ∀ component, isName (baseName component hint) = true := fun component =>
      isName_baseName component hhint
    have hname : ∀ component, isName (claimedName s component (baseName component hint) r) = true :=
      fun component => isName_claimedName s component r (hbase component)
    obtain ⟨hsound, hprintable⟩ := hmembers.sound (isName_ownerName s (hbase _) (hname _))
      (by simp) (h.beginObject (hbase _))
    exact sound_endObject hsound (hname _) (claimedName_not_mem_fixedNames h) hprintable

theorem MakesMembers.sound {owner : String} {required : List String}
    {members members' : List InputValue} {properties : List (String × RefOr Schema)}
    {r r' : Registry}
    (hmakes : MakesMembers s owner required members properties r members' r')
    (howner : isName owner = true) (hprintable : ∀ m ∈ members, m.Printable) (h : r.Sound) :
    r'.Sound ∧ ∀ m ∈ members', m.Printable :=
  match hmakes with
  | .nil => ⟨h, hprintable⟩
  | .hidden _ _ hrest => hrest.sound howner hprintable h
  | .shown _ _ hmember _ hrest => by
    obtain ⟨hsound, hmade⟩ := hmember.sound (isName_propertyHint howner _) h
    refine hrest.sound howner (fun m hm => ?_) hsound
    rcases List.mem_append.mp hm with hm | hm
    · exact hprintable m hm
    · rw [List.mem_singleton.mp hm]
      exact printable_memberFor _ _ _ hmade

end

/-! ## Fields -/

variable {c : Components} {r r' : Registry}

theorem MakesOptional.sound {position : Position} {schema : Option (RefOr Schema)} {hint : String}
    {type : TypeRef} (hmakes : MakesOptional c position schema hint r type r')
    (hhint : isName hint = true) (h : r.Sound) : r'.Sound ∧ MadeType type := by
  cases hmakes with
  | none => exact ⟨h, .of_isName rfl⟩
  | some hmakes => exact hmakes.sound hhint h

theorem isName_parameterName (known : List String) (p : EndpointParameter) :
    isName (parameterName known p) = true := by
  unfold parameterName
  split
  · exact isName_fieldName _
  · exact isName_fieldName _

theorem MakesArguments.sound {base : String} {ps : List EndpointParameter}
    {arguments arguments' : List InputValue}
    (hmakes : MakesArguments c base arguments ps r arguments' r') (hbase : isName base = true)
    (hprintable : ∀ a ∈ arguments, a.Printable) (h : r.Sound) :
    r'.Sound ∧ ∀ a ∈ arguments', a.Printable := by
  induction hmakes with
  | nil => exact ⟨h, hprintable⟩
  | cons htype _ _ ih =>
    obtain ⟨hsound, hmade⟩ := htype.sound (isName_propertyHint hbase _) h
    refine ih (fun a ha => ?_) hsound
    rcases List.mem_append.mp ha with ha | ha
    · exact hprintable a ha
    · rw [List.mem_singleton.mp ha]
      exact ⟨isName_parameterName _ _, hmade.excludeNullIf _⟩

/-- The argument for a body is called after the field or after a component. -/
theorem eq_of_bodyBase {base hint : String} {schema : RefOr Schema}
    (h : bodyBase c base schema = .ok hint) :
    hint = base ∨ ∃ component, hint = typeName component := by
  cases schema with
  | item _ => exact Or.inl (Except.ok.inj h).symm
  | reference target =>
    obtain ⟨found, -, rfl⟩ := map_eq_ok.mp (mapError_eq_ok.mp h)
    exact Or.inr ⟨found.1, rfl⟩

theorem isName_of_bodyBase {base hint : String} {schema : RefOr Schema} (hbase : isName base = true)
    (h : bodyBase c base schema = .ok hint) : isName hint = true := by
  rcases eq_of_bodyBase h with rfl | ⟨component, rfl⟩
  · exact hbase
  · exact isName_typeName component

theorem MakesBody.sound {base : String} {body : Option EndpointBody}
    {arguments arguments' : List InputValue}
    (hmakes : MakesBody c base arguments body r arguments' r')
    (hbase : isName base = true) (hprintable : ∀ a ∈ arguments, a.Printable) (h : r.Sound) :
    r'.Sound ∧ ∀ a ∈ arguments', a.Printable := by
  cases hmakes with
  | none => exact ⟨h, hprintable⟩
  | some hhint htype _ =>
    obtain ⟨hsound, hmade⟩ := htype.sound (isName_of_bodyBase hbase hhint) h
    refine ⟨hsound, fun a ha => ?_⟩
    rcases List.mem_append.mp ha with ha | ha
    · exact hprintable a ha
    · rw [List.mem_singleton.mp ha]
      exact ⟨isName_fieldName _, hmade.excludeNullIf _⟩

theorem MakesField.sound {e : Endpoint} {f : Field} (hmakes : MakesField c e r f r')
    (h : r.Sound) : r'.Sound ∧ f.Printable := by
  obtain ⟨htype, harguments, hbody⟩ := hmakes
  have hbase := isName_typeName e.fieldName
  obtain ⟨h₁, hmade⟩ := htype.sound hbase h
  obtain ⟨h₂, hprintable⟩ := harguments.sound hbase (by simp) h₁
  obtain ⟨h₃, hall⟩ := hbody.sound hbase hprintable h₂
  exact ⟨h₃, isName_endpoint_fieldName e, hmade.printable, hall⟩

/-- All fields of the roots can be printed. -/
def Roots.Printable (roots : Roots) : Prop :=
  (∀ f ∈ roots.query, f.Printable) ∧ ∀ f ∈ roots.mutation, f.Printable

theorem Roots.Printable.push {roots : Roots} {f : Field} (h : roots.Printable) (e : Endpoint)
    (hf : f.Printable) : (roots.push e f).Printable := by
  have hadd : ∀ {fs : List Field}, (∀ g ∈ fs, g.Printable) → ∀ g ∈ fs ++ [f], g.Printable := by
    intro fs hfs g hg
    rcases List.mem_append.mp hg with hg | hg
    · exact hfs g hg
    · rw [List.mem_singleton.mp hg]
      exact hf
  unfold Roots.push
  split
  · exact ⟨hadd h.1, h.2⟩
  · exact ⟨h.1, hadd h.2⟩

theorem MakesFields.sound {endpoints : List Endpoint} {roots roots' : Roots}
    (hmakes : MakesFields c roots endpoints r roots' r') (hprintable : roots.Printable)
    (h : r.Sound) : r'.Sound ∧ roots'.Printable := by
  induction hmakes with
  | nil => exact ⟨h, hprintable⟩
  | cons hfield _ _ ih =>
    obtain ⟨hsound, hf⟩ := hfield.sound h
    exact ih (hprintable.push _ hf) hsound

/-! ## Schemas -/

theorem mem_finished {types : Dictionary (Option Composite)} {t : Composite}
    (h : t ∈ finished types) : ∃ e ∈ types, e.2 = some t :=
  List.mem_filterMap.mp h

theorem Composite.Sound.toObject {t : Composite} (h : t.Sound) : t.toObject.Printable := by
  refine ⟨h.name, fun f hf => ?_, fun heq => h.members_ne_nil (List.map_eq_nil_iff.mp heq)⟩
  obtain ⟨m, hm, rfl⟩ := List.mem_map.mp hf
  have hprintable := h.members m hm
  exact ⟨hprintable.name, hprintable.type, fun a ha => absurd ha List.not_mem_nil⟩

theorem Composite.Sound.toInput {t : Composite} (h : t.Sound) : t.toInput.Printable :=
  ⟨h.name, h.members, h.members_ne_nil⟩

theorem printable_placeholder : placeholder.Printable :=
  ⟨rfl, rfl, fun _ ha => absurd ha List.not_mem_nil⟩

/-- The fields of the query root: there is always one. -/
def Roots.queryFields (roots : Roots) : List Field :=
  if roots.query.isEmpty then [placeholder] else roots.query

theorem Roots.Printable.queryFields {roots : Roots} (h : roots.Printable) :
    ∀ f ∈ roots.queryFields, f.Printable := by
  intro f hf
  rw [Roots.queryFields] at hf
  split at hf
  · rw [List.mem_singleton.mp hf]
    exact printable_placeholder
  · exact h.1 f hf

theorem queryFields_ne_nil (roots : Roots) : roots.queryFields ≠ [] := by
  rw [Roots.queryFields]
  split
  · exact List.cons_ne_nil _ _
  · rename_i h
    exact fun heq => h (by rw [heq]; rfl)

/-- The object types for the roots. -/
def Roots.objects (roots : Roots) : List ObjectType :=
  { name := queryName, fields := roots.queryFields } ::
    if roots.mutation.isEmpty then [] else [{ name := mutationName, fields := roots.mutation }]

theorem queryObject_mem {roots : Roots} (h : roots.query ≠ []) :
    { name := queryName, fields := roots.query } ∈ roots.objects := by
  rw [Roots.objects, Roots.queryFields, List.isEmpty_eq_false_iff.mpr h]
  exact List.mem_cons_self ..

theorem mutationObject_mem {roots : Roots} (h : roots.mutation ≠ []) :
    { name := mutationName, fields := roots.mutation } ∈ roots.objects := by
  rw [Roots.objects, List.isEmpty_eq_false_iff.mpr h]
  exact List.mem_cons_of_mem _ (List.mem_singleton_self _)

theorem objects_assemble (roots : Roots) (r : Registry) :
    (assemble roots r).objects = roots.objects ++ (finished r.objects).map (·.toObject) := by
  unfold assemble Roots.objects Roots.queryFields
  cases roots.mutation.isEmpty <;> rfl

theorem Roots.Printable.objects {roots : Roots} (h : roots.Printable) :
    ∀ o ∈ roots.objects, o.Printable := by
  intro o ho
  have hquery : isName queryName = true := by decide
  have hmutation : isName mutationName = true := by decide
  rcases List.mem_cons.mp ho with rfl | ho
  · exact ⟨hquery, h.queryFields, queryFields_ne_nil roots⟩
  · split at ho
    · exact absurd ho List.not_mem_nil
    · rename_i hsome
      rw [List.mem_singleton.mp ho]
      exact ⟨hmutation, h.2, fun heq => hsome (List.isEmpty_iff.mpr heq)⟩

theorem Registry.Sound.finished (h : r.Sound) (position : Position) :
    ∀ t ∈ finished (r.types position), t.Sound := by
  intro t ht
  obtain ⟨e, he, heq⟩ := mem_finished ht
  exact h.types position e he t heq

theorem printable_assemble {roots : Roots} (h : r.Sound) (hroots : roots.Printable) :
    (assemble roots r).Printable := by
  refine ⟨fun o ho => ?_, fun i hi => ?_⟩
  · rw [objects_assemble] at ho
    rcases List.mem_append.mp ho with ho | ho
    · exact hroots.objects o ho
    · obtain ⟨t, ht, rfl⟩ := List.mem_map.mp ho
      exact (h.finished .output t ht).toObject
  · obtain ⟨t, ht, rfl⟩ := List.mem_map.mp hi
    exact (h.finished .input t ht).toInput

theorem sound_of_makesFields {components : List String} {endpoints : List Endpoint} {roots : Roots}
    (hmakes : MakesFields c {} endpoints (.start components) roots r) :
    r.Sound ∧ roots.Printable :=
  hmakes.sound ⟨by simp, by simp⟩ (.start components)

/-- Every generated schema is printable. -/
theorem MakesSchema.printable {j : Json} {schema : GraphQL.Schema} (h : MakesSchema j schema) :
    schema.Printable := by
  obtain ⟨_, _, hfields, _⟩ := h
  obtain ⟨hsound, hroots⟩ := sound_of_makesFields hfields
  exact printable_assemble hsound hroots

end ApiGraph.Generation
