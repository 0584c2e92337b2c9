import ApiGraph.Proofs.GraphQL.ReservedNames
import ApiGraph.Proofs.Generation.BuiltinNames
import ApiGraph.Proofs.Generation.Growth
import ApiGraph.Proofs.Generation.Owners

/-!
# Names made out of foreign characters

Fields and arguments are called after texts of the document: operations, or their methods and
paths, parameters, bodies and properties.  None of these texts is looked at before a name is made
out of it, and a text whose words begin with two foreign characters gives a name that begins with
two underscores.  The check of the schema refuses such a document, and it does so for no other one.

* `exists_reserved_endpoint_iff`: what the names of an endpoint are made out of.
* `exists_member_iff`: what the members of a type are called after.
* `reservedName_iff`: the documents that are refused because of such a name.
* `reservedName_accented`: an operation with such a name.
-/

namespace ApiGraph.GraphQL

open ApiGraph.Text

/-- In a name nothing is foreign. -/
theorem beginsForeign_of_isName {s : String} (h : isName s = true) : beginsForeign s = false := by
  have hunderscore : isWordChar '_' = false := by decide
  have hword : ∀ c ∈ s.toList.filter isWordChar, c.isAlphanum = true := by
    intro c hc
    obtain ⟨hmem, hword⟩ := List.mem_filter.mp hc
    have hname : isNameChar c = true :=
      List.all_eq_true.mp (all_isNameChar_of_isName h) c hmem
    rcases Bool.or_eq_true_iff.mp hname with heq | halphanum
    · rw [beq_iff_eq.mp heq, hunderscore] at hword
      cases hword
    · exact halphanum
  unfold beginsForeign
  cases hwords : s.toList.filter isWordChar with
  | nil => rfl
  | cons c r =>
    have hc := hword c (hwords ▸ List.mem_cons_self ..)
    rw [List.map_cons, hc]
    rfl

end ApiGraph.GraphQL

namespace ApiGraph.Generation

open ApiGraph.GraphQL hiding Schema
open ApiGraph.OpenApi (RefOr Schema SchemaKind Components Endpoint EndpointParameter EndpointBody)

variable {c : Components} {endpoints : List Endpoint}

/-! ## Names of fields and arguments -/

/-- The text that the field of an endpoint is called after. -/
def nameText (e : Endpoint) : String :=
  e.operationId.getD (String.ofList (Endpoint.spaced (Endpoint.pathWords e.method e.path)))

theorem endpoint_fieldName_eq (e : Endpoint) : e.fieldName = fieldName (nameText e) := by
  unfold OpenApi.Endpoint.fieldName nameText
  cases e.operationId <;> rfl

/-- The location of a parameter behind its name changes nothing. -/
theorem isReserved_parameterName (known : List String) (p : EndpointParameter) :
    isReserved (parameterName known p) = beginsForeign p.name := by
  unfold parameterName
  split
  · rw [isReserved_fieldName, String.append_assoc]
    refine beginsForeign_append p.name ?_
    cases p.location <;> decide +kernel
  · exact isReserved_fieldName p.name

theorem exists_mem_parameterNames_iff {known : List String} {ps : List EndpointParameter} :
    (∃ name ∈ parameterNames known ps, isReserved name = true) ↔
      (∃ name ∈ known, isReserved name = true) ∨ ∃ p ∈ ps, beginsForeign p.name = true := by
  induction ps generalizing known with
  | nil => simp [parameterNames]
  | cons p rest ih =>
    rw [parameterNames, ih]
    simp [isReserved_parameterName, or_and_right, exists_or, or_assoc]

/-- Only a body that is a component brings a text of its own. -/
theorem isReserved_bodyName {base : String} (hbase : isName base = true) (b : EndpointBody) :
    isReserved (bodyName c base b) = true ↔ ∃ k ∈ b.component, beginsForeign k = true := by
  have hinput : ∀ s, isReserved (fieldName (s ++ " input")) = beginsForeign s := by
    intro s
    rw [isReserved_fieldName]
    exact beginsForeign_append s (by decide +kernel)
  rw [bodyName, hinput]
  cases b.component with
  | some k => simp
  | none =>
    cases hbody : bodyBase c base b.schema with
    | ok hint =>
      show beginsForeign hint = true ↔ _
      rw [beginsForeign_of_isName (isName_of_bodyBase hbase hbody)]
      simp
    | error _ =>
      show beginsForeign "" = true ↔ _
      simp [beginsForeign]

/-- A name of the field of an endpoint, or of one of its arguments, begins with two underscores
exactly if one of these texts begins with two foreign characters. -/
theorem exists_reserved_endpoint_iff (e : Endpoint) :
    (isReserved e.fieldName = true ∨ ∃ name ∈ argumentNames c e, isReserved name = true) ↔
      beginsForeign (nameText e) = true ∨ (∃ p ∈ e.parameters, beginsForeign p.name = true) ∨
        ∃ b ∈ e.body, ∃ k ∈ b.component, beginsForeign k = true := by
  have hbase : isName (typeName e.fieldName) = true := isName_typeName _
  have hbody : (∃ name ∈ (e.body.map (bodyName c (typeName e.fieldName))).toList,
      isReserved name = true) ↔ ∃ b ∈ e.body, ∃ k ∈ b.component, beginsForeign k = true := by
    cases e.body with
    | none => simp
    | some b => simpa using isReserved_bodyName hbase b
  rw [argumentNames, ← hbody, endpoint_fieldName_eq, isReserved_fieldName]
  simp only [List.mem_append, or_and_right, exists_or, exists_mem_parameterNames_iff]
  simp

/-- One of the names of a field, which are its own and those of its arguments, begins with two
underscores. -/
def ReservedNames (names : String × List String) : Prop :=
  isReserved names.1 = true ∨ ∃ name ∈ names.2, isReserved name = true

theorem hasReserved_iff {o : ObjectType} :
    o.HasReserved ↔ ∃ f ∈ o.fields, ReservedNames (fieldNames f) := by
  simp [ObjectType.HasReserved, ReservedNames, fieldNames]

/-- The placeholder is not to blame. -/
theorem exists_root_hasReserved_iff {roots : Roots} :
    (∃ o ∈ roots.objects, o.HasReserved) ↔
      ∃ f ∈ roots.query ++ roots.mutation, ReservedNames (fieldNames f) := by
  have hplaceholder : ¬ ReservedNames (fieldNames placeholder) := by
    rintro (h | ⟨_, h, -⟩)
    · exact absurd h (by decide)
    · exact absurd h List.not_mem_nil
  constructor
  · rintro ⟨o, ho, hreserved⟩
    obtain ⟨f, hf, hnames⟩ := hasReserved_iff.mp hreserved
    refine ⟨f, ?_, hnames⟩
    rcases List.mem_cons.mp ho with rfl | ho
    · have hfields : f ∈ roots.queryFields := hf
      unfold Roots.queryFields at hfields
      split at hfields
      · rw [List.mem_singleton.mp hfields] at hnames
        exact absurd hnames hplaceholder
      · exact List.mem_append_left _ hfields
    · split at ho
      · exact absurd ho List.not_mem_nil
      · rw [List.mem_singleton.mp ho] at hf
        exact List.mem_append_right _ hf
  · rintro ⟨f, hf, hreserved⟩
    rcases List.mem_append.mp hf with hf | hf
    · exact ⟨_, queryObject_mem (List.ne_nil_of_mem hf), hasReserved_iff.mpr ⟨f, hf, hreserved⟩⟩
    · exact ⟨_, mutationObject_mem (List.ne_nil_of_mem hf), hasReserved_iff.mpr ⟨f, hf, hreserved⟩⟩

section Runs

variable {roots : Roots} {r : Registry} {components : List String}
  (hmakes : MakesFields c {} endpoints (.start components) roots r)
include hmakes

/-- The names in the roots are those of endpoints. -/
theorem exists_endpointNames_iff {P : String × List String → Prop} :
    (∃ f ∈ roots.query ++ roots.mutation, P (fieldNames f)) ↔
      ∃ e ∈ endpoints, P (endpointNames c e) := by
  obtain ⟨hquery, hmutation⟩ := names_of_makesFields hmakes
  have hmem : ∀ names, names ∈ (roots.query ++ roots.mutation).map fieldNames ↔
      names ∈ endpoints.map (endpointNames c) := by
    intro names
    rw [List.map_append, hquery, hmutation, List.map_nil, List.nil_append, List.nil_append,
      List.mem_append, List.mem_map, List.mem_map, List.mem_map]
    constructor
    · rintro (⟨e, he, rfl⟩ | ⟨e, he, rfl⟩)
      · exact ⟨e, List.mem_of_mem_filter he, rfl⟩
      · exact ⟨e, List.mem_of_mem_filter he, rfl⟩
    · rintro ⟨e, he, rfl⟩
      cases hread : e.isQuery with
      | true => exact Or.inl ⟨e, List.mem_filter.mpr ⟨he, hread⟩, rfl⟩
      | false => exact Or.inr ⟨e, List.mem_filter.mpr ⟨he, by rw [hread]; rfl⟩, rfl⟩
  constructor
  · rintro ⟨f, hf, h⟩
    obtain ⟨e, he, heq⟩ := List.mem_map.mp ((hmem _).mp (List.mem_map_of_mem hf))
    exact ⟨e, he, heq ▸ h⟩
  · rintro ⟨e, he, h⟩
    obtain ⟨f, hf, heq⟩ := List.mem_map.mp ((hmem _).mpr (List.mem_map_of_mem he))
    exact ⟨f, hf, heq ▸ h⟩

end Runs

/-! ## Names of members -/

/-- An object that is worked on in the position has the visible property. -/
inductive HasProperty (c : Components) (endpoints : List Endpoint) (position : Position)
    (property : String) : Prop
  | inside {e : Endpoint} {root a schema : RefOr Schema} (he : e ∈ endpoints)
      (hworks : WorksOn e position root) (hinside : Inside ⟨c, position⟩ root a)
      (o : ObjectSchema ⟨c, position⟩ a) (hproperty : (property, schema) ∈ o.visible) :
      HasProperty c endpoints position property

/-- The object in a place of the type has the visible property. -/
inductive PropertyOf (c : Components) (endpoints : List Endpoint) (schema : GraphQL.Schema)
    (position : Position) (name property : String) : Prop
  | placed {a value : RefOr Schema} {type : TypeRef}
      (hplace : Place c endpoints schema position a type) (hnamed : IsNamed type name)
      (o : ObjectSchema ⟨c, position⟩ a) (hproperty : (property, value) ∈ o.visible) :
      PropertyOf c endpoints schema position name property

section Runs

variable {roots : Roots} {r : Registry} {components : List String}
  (hmakes : MakesFields c {} endpoints (.start components) roots r)
include hmakes

/-- The members of a type are called after the properties of the object that it is made for. -/
theorem exists_member_iff {position : Position} {t : Composite}
    (hscalars : ∀ name ∈ r.finishedNames position, name ∉ scalarNames)
    (ht : t ∈ finished (r.types position)) {name : String} :
    (∃ m ∈ t.members, m.name = name) ↔ ∃ property,
      PropertyOf c endpoints (assemble roots r) position t.name property ∧
        fieldName property = name := by
  have hname : t.name ∈ r.finishedNames position := List.mem_map_of_mem ht
  have hregistered := registered?_of_mem_finished (wellNamed_of_makesFields hmakes) ht
  constructor
  · rintro ⟨m, hm, rfl⟩
    obtain ⟨a, type, hplace, hnamed⟩ := hmakes.exists_place_of_registered hscalars hname
    obtain ⟨o, t', hsame, ht'⟩ := hplace.object hmakes hnamed hname (hscalars _ hname)
    obtain rfl := ht'.eq_of_registered hsame hregistered
    obtain ⟨p, hp⟩ := exists_zip_of_mem ht'.members.forall₂ hm
    obtain ⟨_, _, _, -, -, rfl⟩ := List.forall₂_zip ht'.members.forall₂ hp
    exact ⟨p.1, .placed hplace hnamed o (List.of_mem_zip hp).1, rfl⟩
  · rintro ⟨property, ⟨hplace, hnamed, o, hproperty⟩, rfl⟩
    obtain ⟨t', hnamed', ht'⟩ := o.exists_isMade hmakes hplace
    obtain rfl := ht'.eq_of_registered (hnamed'.leaf.symm.trans hnamed.leaf) hregistered
    obtain ⟨m, hm⟩ := exists_mem_zip ht'.members.forall₂ hproperty
    obtain ⟨_, _, _, -, -, rfl⟩ := List.forall₂_zip ht'.members.forall₂ hm
    exact ⟨_, (List.of_mem_zip hm).2, rfl⟩

/-- Every object that is worked on has a type. -/
theorem exists_propertyOf_iff {position : Position} {property : String} :
    (∃ t ∈ finished (r.types position),
      PropertyOf c endpoints (assemble roots r) position t.name property) ↔
        HasProperty c endpoints position property := by
  constructor
  · rintro ⟨t, -, ⟨hplace, -, o, hproperty⟩⟩
    obtain ⟨e, he, root, hworks, hinside⟩ := hplace.exists_worksOn
    exact .inside he hworks hinside o hproperty
  · rintro ⟨he, hworks, hinside, o, hproperty⟩
    obtain ⟨_, hroot⟩ := exists_place_of_worksOn hmakes he hworks
    obtain ⟨type, hplace⟩ := exists_place_of_inside hmakes hinside hroot
    obtain ⟨t, hnamed, ht⟩ := o.exists_isMade hmakes hplace
    exact ⟨t, mem_finished_of_registered? ht.registered, .placed hplace hnamed o hproperty⟩

/-- A type has a member with a name that begins with two underscores exactly if one of these
properties begins with two foreign characters. -/
theorem exists_reservedMember_iff {position : Position} {t : Composite}
    (hscalars : ∀ name ∈ r.finishedNames position, name ∉ scalarNames)
    (ht : t ∈ finished (r.types position)) :
    (∃ m ∈ t.members, isReserved m.name = true) ↔ ∃ property,
      PropertyOf c endpoints (assemble roots r) position t.name property ∧
        beginsForeign property = true := by
  constructor
  · rintro ⟨m, hm, hreserved⟩
    obtain ⟨property, hproperty, hname⟩ :=
      (exists_member_iff hmakes hscalars ht).mp ⟨m, hm, rfl⟩
    rw [← hname, isReserved_fieldName] at hreserved
    exact ⟨property, hproperty, hreserved⟩
  · rintro ⟨property, hproperty, hforeign⟩
    obtain ⟨m, hm, hname⟩ :=
      (exists_member_iff hmakes hscalars ht).mpr ⟨property, hproperty, rfl⟩
    rw [← isReserved_fieldName, ← hname] at hforeign
    exact ⟨m, hm, hforeign⟩

end Runs

/-! ## Schemas -/

/-- The texts that names in object types are made out of. -/
inductive NamedIn (c : Components) (endpoints : List Endpoint) : String → Prop
  | operation {e : Endpoint} (he : e ∈ endpoints) : NamedIn c endpoints (nameText e)
  | parameter {e : Endpoint} {p : EndpointParameter} (he : e ∈ endpoints) (hp : p ∈ e.parameters) :
      NamedIn c endpoints p.name
  | body {e : Endpoint} {b : EndpointBody} {component : String} (he : e ∈ endpoints)
      (hb : b ∈ e.body) (hcomponent : component ∈ b.component) : NamedIn c endpoints component
  | property {property : String} (h : HasProperty c endpoints .output property) :
      NamedIn c endpoints property

section Runs

variable {roots : Roots} {r : Registry} {components : List String}
  (hmakes : MakesFields c {} endpoints (.start components) roots r)
  (hbuiltin : ∀ name ∈ (assemble roots r).typeNames, name ∉ builtinScalars)

include hbuiltin in
theorem not_mem_scalarNames_of_typeNames (position : Position) :
    ∀ name ∈ r.finishedNames position, name ∉ scalarNames := fun name hname hscalar =>
  hbuiltin name (mem_typeNames_of_mem_finishedNames hname)
    (mem_builtinScalars_of_mem_scalarNames hscalar)

include hmakes hbuiltin

theorem exists_object_hasReserved_iff :
    (∃ o ∈ (assemble roots r).objects, o.HasReserved) ↔
      ∃ text, NamedIn c endpoints text ∧ beginsForeign text = true := by
  have hscalars := not_mem_scalarNames_of_typeNames hbuiltin .output
  have hmembers : ∀ t : Composite, t.toObject.HasReserved ↔
      ∃ m ∈ t.members, isReserved m.name = true := by
    intro t
    simp [ObjectType.HasReserved, Composite.toObject]
  rw [objects_assemble]
  constructor
  · rintro ⟨o, ho, hreserved⟩
    rcases List.mem_append.mp ho with ho | ho
    · obtain ⟨e, he, hnames⟩ := (exists_endpointNames_iff hmakes).mp
        (exists_root_hasReserved_iff.mp ⟨o, ho, hreserved⟩)
      rcases (exists_reserved_endpoint_iff e).mp hnames with h | ⟨p, hp, h⟩ | ⟨b, hb, k, hk, h⟩
      · exact ⟨_, .operation he, h⟩
      · exact ⟨_, .parameter he hp, h⟩
      · exact ⟨_, .body he hb hk, h⟩
    · obtain ⟨t, ht, rfl⟩ := List.mem_map.mp ho
      have hfinished : t ∈ finished (r.types .output) := ht
      obtain ⟨property, hproperty, hforeign⟩ :=
        (exists_reservedMember_iff hmakes hscalars hfinished).mp ((hmembers t).mp hreserved)
      exact ⟨property, .property ((exists_propertyOf_iff hmakes).mp ⟨t, hfinished, hproperty⟩),
        hforeign⟩
  · rintro ⟨text, hnamed, hforeign⟩
    have hroot : ∀ e ∈ endpoints, ReservedNames (endpointNames c e) →
        ∃ o ∈ roots.objects ++ (finished r.objects).map (·.toObject), o.HasReserved := by
      intro e he hnames
      obtain ⟨o, ho, hreserved⟩ := exists_root_hasReserved_iff.mpr
        ((exists_endpointNames_iff hmakes).mpr ⟨e, he, hnames⟩)
      exact ⟨o, List.mem_append_left _ ho, hreserved⟩
    cases hnamed with
    | operation he => exact hroot _ he ((exists_reserved_endpoint_iff _).mpr (Or.inl hforeign))
    | parameter he hp =>
      exact hroot _ he ((exists_reserved_endpoint_iff _).mpr (Or.inr (Or.inl ⟨_, hp, hforeign⟩)))
    | body he hb hk =>
      exact hroot _ he
        ((exists_reserved_endpoint_iff _).mpr (Or.inr (Or.inr ⟨_, hb, _, hk, hforeign⟩)))
    | property h =>
      obtain ⟨t, ht, hproperty⟩ := (exists_propertyOf_iff hmakes).mpr h
      refine ⟨t.toObject, List.mem_append_right _ (List.mem_map_of_mem ht), (hmembers t).mpr ?_⟩
      exact (exists_reservedMember_iff hmakes hscalars ht).mpr ⟨text, hproperty, hforeign⟩

theorem input_hasReserved_iff {i : InputObject} (hi : i ∈ (assemble roots r).inputs) :
    i.HasReserved ↔ ∃ property, PropertyOf c endpoints (assemble roots r) .input i.name property ∧
      beginsForeign property = true := by
  obtain ⟨t, ht, rfl⟩ := List.mem_map.mp hi
  exact exists_reservedMember_iff hmakes (not_mem_scalarNames_of_typeNames hbuiltin .input) ht

/-- What the check of the schema finds, said about the document. -/
theorem exists_reserved_violation_iff :
    (∃ v : Violation, v.IsReserved ∧ (assemble roots r).violation? = some v) ↔
      (∃ text, NamedIn c endpoints text ∧ beginsForeign text = true) ∨
        ∃ before i after, (assemble roots r).inputs = before ++ i :: after ∧
          (∀ k ∈ before, (assemble roots r).requiresItself k.name = false) ∧
            ∃ property, PropertyOf c endpoints (assemble roots r) .input i.name property ∧
              beginsForeign property = true := by
  rw [reserved_violation_iff, and_iff_right hbuiltin]
  refine or_congr (exists_object_hasReserved_iff hmakes hbuiltin) ?_
  refine exists_congr fun before => exists_congr fun i => exists_congr fun after => ?_
  refine and_congr_right fun hinputs => and_congr_right fun _ => ?_
  refine input_hasReserved_iff hmakes hbuiltin ?_
  rw [hinputs]
  exact List.mem_append_right _ (List.mem_cons_self ..)

end Runs

/-- A document is refused because of the name of a field or an argument that begins with two
underscores exactly if all of its fields can be made, no type is called like a built-in scalar, and
one of the texts that names are made out of begins with two foreign characters: one for the object
types, or one for an input object with none before it that refers to itself. -/
theorem reservedName_iff {j : Json} :
    (∃ v : Violation, v.IsReserved ∧ schemaOf j = .error (.problem (.invalidSchema v))) ↔
      ∃ d endpoints schema, documentOf j = .ok d ∧ d.endpoints = .ok endpoints ∧
        assembled d.components endpoints = .ok schema ∧
          (∀ name ∈ schema.typeNames, name ∉ builtinScalars) ∧
            ((∃ text, NamedIn d.components endpoints text ∧ beginsForeign text = true) ∨
              ∃ before i after, schema.inputs = before ++ i :: after ∧
                (∀ k ∈ before, schema.requiresItself k.name = false) ∧
                  ∃ property, PropertyOf d.components endpoints schema .input i.name property ∧
                    beginsForeign property = true) := by
  constructor
  · rintro ⟨v, hv, h⟩
    obtain ⟨d, endpoints, roots, r, hdocument, hendpoints, hroots, hviolation⟩ :=
      invalidSchema_iff.mp h
    obtain ⟨hbuiltin, -⟩ := reserved_violation_iff.mp ⟨v, hv, hviolation⟩
    refine ⟨d, endpoints, assemble roots r, hdocument, hendpoints,
      bind_eq_ok.mpr ⟨_, hroots, rfl⟩, hbuiltin, ?_⟩
    exact (exists_reserved_violation_iff (makes_of_rootFields hroots) hbuiltin).mp
      ⟨v, hv, hviolation⟩
  · rintro ⟨d, endpoints, schema, hdocument, hendpoints, hassembled, hbuiltin, h⟩
    obtain ⟨⟨roots, r⟩, hroots, heq⟩ := bind_eq_ok.mp hassembled
    obtain rfl := Except.ok.inj heq
    obtain ⟨v, hv, hviolation⟩ :=
      (exists_reserved_violation_iff (makes_of_rootFields hroots) hbuiltin).mpr h
    exact ⟨v, hv, invalidSchema_iff.mpr
      ⟨d, endpoints, roots, r, hdocument, hendpoints, hroots, hviolation⟩⟩

/-- A document with an operation that is called with two letters, none of which is one of ASCII. -/
def accentedDocument : Json :=
  .object [("openapi", .string "3.0.0"),
    ("info", .object [("title", .string "t"), ("version", .string "1")]),
    ("paths", .object [("/pets", .object [("get", .object [("operationId", .string "éé"),
      ("responses", .object [])])])])]

/-- Underscores take the place of both letters, and the document is refused. -/
theorem reservedName_accented :
    schemaOf accentedDocument =
      .error (.problem (.invalidSchema (.reservedField "Query" "__"))) := by
  decide +kernel

end ApiGraph.Generation
