import ApiGraph.Proofs.GraphQL.NameGrammar
import ApiGraph.Proofs.Generation.OwnNames
import ApiGraph.Proofs.Generation.Translations
import ApiGraph.Proofs.Generation.TypeNames

/-!
# Names that are derived from others

The names of types begin with the name made out of some text.  The items of an array are called
after the array, a member after its owner and the property, a type for arguments gets a suffix, and
a name that is not free gets a number: each time something is put behind a name (`Extension`).
Whatever is put there may stand in a name, so the grammar is kept however often this happens.

No other names are ever made.  A run comes to one task after the other, the type of a schema under
a hint (`ComesTo`), and this does not depend on how the run ends.  At each task the hint, the name
that a type for it is begun under, and all names that have been handed out or are kept for
components are derived from the name of some text; only the roots and `JSON` have fixed names.

* `DerivedFrom.inGrammar`: what is derived from a name is a name.
* `ComesTo.names_derived`: the names at a task.
* `derivedNames_inGrammar`: the names of all texts, and those that are derived from them.
* `derivedNames_drafts`: a document in which a name gets a number.
-/

namespace ApiGraph.Generation

open ApiGraph.GraphQL hiding Schema
open ApiGraph.OpenApi (RefOr Schema Components Endpoint EndpointParameter EndpointBody)
open Relation (ReflTransGen)

/-! ## Derived names -/

/-- The second name is the first one with something behind it. -/
inductive Extension (name : String) : String → Prop
  | item : Extension name (itemHint name)
  | input : Extension name (Position.input.preferred name)
  | property (text : String) : Extension name (propertyHint name text)
  /-- If the name is not free, it gets a number. -/
  | claimed (p : NamePool) (claimant : Claimant) : Extension name (p.claim claimant name).1

/-- The second name comes from the first one by any number of extensions. -/
def DerivedFrom : String → String → Prop :=
  ReflTransGen Extension

/-- The name comes from the name of a type that is called after a text. -/
def IsDerived (name : String) : Prop :=
  ∃ text, DerivedFrom (typeName text) name

theorem Extension.inGrammar {name name' : String} (h : Extension name name')
    (hname : InGrammar name) : InGrammar name' := by
  rw [inGrammar_iff] at hname ⊢
  cases h with
  | item => exact isName_itemHint hname
  | input => exact isName_preferred .input hname
  | property text => exact isName_propertyHint hname text
  | claimed p claimant => exact p.isName_choose claimant hname

theorem DerivedFrom.inGrammar {name name' : String} (h : DerivedFrom name name')
    (hname : InGrammar name) : InGrammar name' := by
  induction h with
  | refl => exact hname
  | tail _ hextension ih => exact hextension.inGrammar ih

namespace IsDerived

variable {name : String}

theorem inGrammar (h : IsDerived name) : InGrammar name := by
  obtain ⟨text, hderived⟩ := h
  exact hderived.inGrammar (inGrammar_typeName text)

theorem typeName (text : String) : IsDerived (typeName text) :=
  ⟨text, .refl⟩

theorem extend {name' : String} (h : IsDerived name) (hextension : Extension name name') :
    IsDerived name' := by
  obtain ⟨text, hderived⟩ := h
  exact ⟨text, hderived.tail hextension⟩

theorem preferred (h : IsDerived name) (position : Position) :
    IsDerived (position.preferred name) := by
  cases position with
  | output => exact h
  | input => exact h.extend .input

theorem baseName (h : IsDerived name) (component : Option String) :
    IsDerived (baseName component name) := by
  cases component with
  | none => exact h
  | some c => exact .typeName c

variable {s : Setting} {component : Option String} {r : Registry}

theorem claimedName (h : IsDerived name) : IsDerived (claimedName s component name r) :=
  (h.preferred s.position).extend (.claimed r.names _)

theorem ownerName (h : IsDerived name) {claimed : String} (hclaimed : IsDerived claimed) :
    IsDerived (s.ownerName name claimed) := by
  unfold Setting.ownerName
  cases s.position with
  | output => exact hclaimed
  | input => exact h

theorem of_argumentHint {c : Components} {base : String} (h : IsDerived base)
    (hhint : ArgumentHint c base name) : IsDerived name := by
  cases hhint with
  | parameter text => exact h.extend (.property text)
  | body hbody =>
    rcases eq_of_bodyBase hbody with rfl | ⟨component, rfl⟩
    · exact h
    · exact .typeName component

end IsDerived

/-! ## Names in the registry -/

/-- All names that have been handed out, or are kept for components, are derived. -/
def Registry.NamesDerived (r : Registry) : Prop :=
  ∀ name ∈ r.names.taken ++ r.names.reserved, name ∈ fixedNames ∨ IsDerived name

namespace Registry.NamesDerived

variable {s : Setting} {component : Option String} {base : String} {r : Registry}

theorem start (components : List String) : (Registry.start components).NamesDerived := by
  intro name hname
  rcases List.mem_append.mp hname with htaken | hreserved
  · exact Or.inl htaken
  · obtain ⟨c, -, position, rfl⟩ := NamePool.mem_reserved_start.mp hreserved
    exact Or.inr ((IsDerived.typeName c).preferred position)

theorem beginObject (h : r.NamesDerived) (hbase : IsDerived base) :
    (beginObject s component base r).2.NamesDerived := by
  unfold NamesDerived
  rw [names_beginObject]
  exact List.forall_mem_cons.mpr ⟨Or.inr hbase.claimedName, h⟩

theorem endObject (h : r.NamesDerived) (t : Composite) :
    (endObject s component t r).2.NamesDerived := by
  unfold NamesDerived
  rw [names_endObject]
  exact h

end Registry.NamesDerived

/-! ## Runs -/

section Runs

variable {s : Setting}

mutual

theorem Makes.namesDerived {a : RefOr Schema} {hint : String} {r r' : Registry} {type : TypeRef}
    (hmakes : Makes s a hint r type r') (hhint : IsDerived hint) (h : r.NamesDerived) :
    r'.NamesDerived :=
  match hmakes with
  | .scalar _ _ => h
  | .json _ _ => h
  | .array _ _ hitem _ => hitem.namesDerived ((hhint.baseName _).extend .item) h
  | .known _ _ _ => h
  | .new _ _ _ hmembers => by
    have hbase := fun component => hhint.baseName component
    exact (hmembers.namesDerived ((hbase _).ownerName (hbase _).claimedName)
      (h.beginObject (hbase _))).endObject _

theorem MakesMembers.namesDerived {owner : String} {required : List String}
    {members members' : List InputValue} {properties : List (String × RefOr Schema)}
    {r r' : Registry} (hmakes : MakesMembers s owner required members properties r members' r')
    (howner : IsDerived owner) (h : r.NamesDerived) : r'.NamesDerived :=
  match hmakes with
  | .nil => h
  | .hidden _ _ hrest => hrest.namesDerived howner h
  | .shown _ _ hmember _ hrest =>
    hrest.namesDerived howner (hmember.namesDerived (howner.extend (.property _)) h)

end

variable {c : Components} {endpoints : List Endpoint} {r r' : Registry}

theorem Step.namesDerived (hstep : Step c endpoints r r') (h : r.NamesDerived) :
    r'.NamesDerived := by
  cases hstep with
  | @answer e _ _ _ _ hmakes => exact hmakes.namesDerived (.typeName e.fieldName) h
  | @argument e _ _ _ _ hhint hmakes =>
    exact hmakes.namesDerived (.of_argumentHint (.typeName e.fieldName) hhint) h

theorem namesDerived_of_steps (hsteps : ReflTransGen (Step c endpoints) r r')
    (h : r.NamesDerived) : r'.NamesDerived :=
  keeps_of_steps (fun _ _ => Step.namesDerived) hsteps h

end Runs

/-! ## Tasks -/

/-- Begin a type for the task: the name that it gets, and the registry with it. -/
def Task.begun (t : Task) (c : Components) (component : Option String) (r : Registry) :
    String × Registry :=
  beginObject ⟨c, t.position⟩ component (baseName component t.hint) r

/-- What the members of that type are called after. -/
def Task.owner (t : Task) (c : Components) (component : Option String) (r : Registry) : String :=
  Setting.ownerName ⟨c, t.position⟩ (baseName component t.hint) (t.begun c component r).1

/-- The fields of all endpoints before this one have been made, and this is the registry now. -/
def IsNext (c : Components) (endpoints : List Endpoint) (e : Endpoint) (r : Registry) : Prop :=
  ∃ before after roots, endpoints = before ++ e :: after ∧
    rootFields c {} before (.start c.schemas.keys) = .ok (roots, r)

/-- While the fields of the endpoints are made, the run comes to the task, with this much of the
bound on the nesting left and this registry.  How the task ends, and the run, is left open. -/
inductive ComesTo (c : Components) (endpoints : List Endpoint) : Task → Nat → Registry → Prop
  | answer {e : Endpoint} {a : RefOr Schema} {r : Registry} (hnext : IsNext c endpoints e r)
      (ha : e.response = some a) :
      ComesTo c endpoints ⟨.output, a, typeName e.fieldName⟩ (nestingBound c a) r
  /-- The arguments for the parameters before this one have been made. -/
  | parameter {e : Endpoint} {a : RefOr Schema} {type : TypeRef} {p : EndpointParameter}
      {before after : List EndpointParameter} {arguments : List InputValue} {r r₁ r₂ : Registry}
      (hnext : IsNext c endpoints e r)
      (hanswer : optionalType c .output e.response (typeName e.fieldName) r = .ok (type, r₁))
      (hparameters : e.parameters = before ++ p :: after)
      (hbefore : parameterArguments c e.fieldName (typeName e.fieldName) [] before r₁ =
        .ok (arguments, r₂))
      (ha : p.schema = some a) :
      ComesTo c endpoints ⟨.input, a, propertyHint (typeName e.fieldName) p.name⟩
        (nestingBound c a) r₂
  | body {e : Endpoint} {type : TypeRef} {b : EndpointBody} {hint : String}
      {arguments : List InputValue} {r r₁ r₂ : Registry} (hnext : IsNext c endpoints e r)
      (hanswer : optionalType c .output e.response (typeName e.fieldName) r = .ok (type, r₁))
      (hparameters : parameterArguments c e.fieldName (typeName e.fieldName) [] e.parameters r₁ =
        .ok (arguments, r₂))
      (hbody : e.body = some b)
      (hhint : bodyBase c (typeName e.fieldName) b.schema = .ok hint) :
      ComesTo c endpoints ⟨.input, b.schema, hint⟩ (nestingBound c b.schema) r₂
  | item {t : Task} {items : RefOr Schema} {component : Option String} {resolved : Schema}
      {bound : Nat} {r : Registry} (h : ComesTo c endpoints t (bound + 1) r)
      (hresolve : Setting.resolve ⟨c, t.position⟩ t.schema = .ok (component, resolved))
      (hkind : resolved.kind = .array (some items)) :
      ComesTo c endpoints ⟨t.position, items, itemHint (baseName component t.hint)⟩ bound r
  /-- The members before one that can be seen have been made. -/
  | member {t : Task} {component : Option String} {resolved : Schema}
      {before after : List (String × RefOr Schema)} {p : String × RefOr Schema}
      {required : List String} {members : List InputValue} {bound : Nat} {r r' : Registry}
      (h : ComesTo c endpoints t (bound + 1) r)
      (hresolve : Setting.resolve ⟨c, t.position⟩ t.schema = .ok (component, resolved))
      (hkind : resolved.kind = .object (before ++ p :: after) required)
      (hnew : component.bind (r.assigned? t.position) = none)
      (hbefore : membersOf (typeOf ⟨c, t.position⟩ bound) ⟨c, t.position⟩ (t.owner c component r)
        required [] before (t.begun c component r).2 = .ok (members, r'))
      (hshows : Setting.shows ⟨c, t.position⟩ p.2 = true) :
      ComesTo c endpoints ⟨t.position, p.2, propertyHint (t.owner c component r) p.1⟩ bound r'

/-- The names that are there at a task: its hint, the name that a type for it would be begun under,
those that have been handed out, and those that are kept for components. -/
def Task.names (t : Task) (c : Components) (component : Option String) (r : Registry) :
    List String :=
  t.hint :: (t.begun c component r).1 :: (r.names.taken ++ r.names.reserved)

variable {c : Components} {endpoints : List Endpoint} {r : Registry}

theorem IsDerived.begun {t : Task} (h : IsDerived t.hint) (component : Option String) :
    IsDerived (t.begun c component r).1 :=
  (h.baseName component).claimedName

theorem IsDerived.owner {t : Task} (h : IsDerived t.hint) (component : Option String) :
    IsDerived (t.owner c component r) :=
  (h.baseName component).ownerName (h.begun component)

theorem Registry.NamesDerived.begun {t : Task} (h : r.NamesDerived) (hhint : IsDerived t.hint)
    (component : Option String) : (t.begun c component r).2.NamesDerived :=
  h.beginObject (hhint.baseName component)

theorem IsNext.namesDerived {e : Endpoint} (h : IsNext c endpoints e r) : r.NamesDerived := by
  obtain ⟨_, _, _, -, hrun⟩ := h
  exact namesDerived_of_steps (makes_of_rootFields hrun).steps (.start _)

/-- The answer has been made, and the arguments for some parameters. -/
theorem IsNext.namesDerived_arguments {e : Endpoint} {type : TypeRef} {ps : List EndpointParameter}
    {arguments : List InputValue} {r₁ r₂ : Registry} (h : IsNext c endpoints e r)
    (hanswer : optionalType c .output e.response (typeName e.fieldName) r = .ok (type, r₁))
    (harguments : parameterArguments c e.fieldName (typeName e.fieldName) [] ps r₁ =
      .ok (arguments, r₂)) : r₂.NamesDerived := by
  have he := List.mem_singleton_self e
  have hanswered := (makes_of_optionalType hanswer).steps_output he
  have hsteps := (makes_of_parameterArguments harguments).steps he
  exact namesDerived_of_steps (hanswered.trans hsteps) h.namesDerived

/-- At every task the hint is derived, and the names in the registry are. -/
theorem ComesTo.derived {t : Task} {bound : Nat} (h : ComesTo c endpoints t bound r) :
    IsDerived t.hint ∧ r.NamesDerived := by
  -- Along the tasks on the way; the registry is that of what has been made before each of them.
  induction h with
  | @answer e _ _ hnext _ => exact ⟨.typeName e.fieldName, hnext.namesDerived⟩
  | @parameter e _ _ p _ _ _ _ _ _ hnext hanswer _ hbefore _ =>
    exact ⟨.of_argumentHint (.typeName e.fieldName) (.parameter (c := c) p.name),
      hnext.namesDerived_arguments hanswer hbefore⟩
  | @body e _ _ _ _ _ _ _ hnext hanswer hparameters _ hhint =>
    exact ⟨.of_argumentHint (.typeName e.fieldName) (.body hhint),
      hnext.namesDerived_arguments hanswer hparameters⟩
  | item _ _ _ ih => exact ⟨(ih.1.baseName _).extend .item, ih.2⟩
  | @member _ component _ _ _ _ _ _ _ _ _ _ _ _ _ hbefore _ ih =>
    have hmakes := makesMembers_of_membersOf makes_of_typeOf hbefore
    exact ⟨(ih.1.owner component).extend (.property _),
      hmakes.namesDerived (ih.1.owner component) (ih.2.begun ih.1 component)⟩

theorem ComesTo.names_derived {t : Task} {bound : Nat} (h : ComesTo c endpoints t bound r)
    (component : Option String) :
    ∀ name ∈ t.names c component r, name ∈ fixedNames ∨ IsDerived name := by
  obtain ⟨hhint, hnames⟩ := h.derived
  exact List.forall_mem_cons.mpr ⟨Or.inr hhint,
    List.forall_mem_cons.mpr ⟨Or.inr (hhint.begun component), hnames⟩⟩

/-! ## Schemas -/

theorem typeNames_derived {j : Json} {schema : GraphQL.Schema} (h : schemaOf j = .ok schema) :
    ∀ name ∈ schema.typeNames, name ∈ fixedNames ∨ IsDerived name := by
  intro name hname
  obtain ⟨d, endpoints, roots, r, -, -, hrun, rfl, -⟩ := rootFields_of_schemaOf h
  have hmakes := makes_of_rootFields hrun
  rw [Classical.or_iff_not_imp_left]
  intro hnot
  obtain ⟨position, hfinished⟩ := exists_mem_finishedNames hname hnot
  have hwell := wellNamed_of_makesFields hmakes
  obtain ⟨e, he, rfl⟩ :=
    List.mem_map.mp ((hwell.sublist_finishedNames position).subset hfinished)
  have htaken := List.mem_append_left r.names.reserved (hwell.taken position e he)
  exact (namesDerived_of_steps hmakes.steps (.start _) e.1 htaken).resolve_left hnot

theorem inGrammar_of_derived {name : String} (h : name ∈ fixedNames ∨ IsDerived name) :
    InGrammar name := by
  rcases h with hfixed | hderived
  · have hall : ∀ name ∈ fixedNames, InGrammar name := by decide
    exact hall name hfixed
  · exact hderived.inGrammar

/-- The names of fields and types that are made out of texts are names of the grammar, whatever the
texts are, and nothing is changed in a text that is one when its words have been joined.  What is
derived from a name is a name.  And at every task of a run, and in the schema in the end, all names
of types are fixed ones or derived. -/
theorem derivedNames_inGrammar :
    (∀ text, InGrammar (fieldName text) ∧ InGrammar (typeName text) ∧
      (fieldName text = String.ofList (Text.camelCase text.toList) ↔
        InGrammar (String.ofList (Text.camelCase text.toList))) ∧
      (typeName text = String.ofList (Text.pascalCase text.toList) ↔
        InGrammar (String.ofList (Text.pascalCase text.toList)))) ∧
      (∀ name name', InGrammar name → DerivedFrom name name' → InGrammar name') ∧
      (∀ c endpoints t bound r component, ComesTo c endpoints t bound r →
        ∀ name ∈ t.names c component r, InGrammar name ∧ (name ∈ fixedNames ∨ IsDerived name)) ∧
      ∀ j schema, schemaOf j = .ok schema →
        ∀ name ∈ schema.typeNames, InGrammar name ∧ (name ∈ fixedNames ∨ IsDerived name) := by
  refine ⟨fun text => ⟨inGrammar_fieldName text, inGrammar_typeName text, sanitize_eq_self_iff,
    sanitize_eq_self_iff⟩, fun _ _ hname hderived => hderived.inGrammar hname, ?_, ?_⟩
  · intro c endpoints t bound r component h name hname
    have hderived := h.names_derived component name hname
    exact ⟨inGrammar_of_derived hderived, hderived⟩
  · intro j schema h name hname
    have hderived := typeNames_derived h name hname
    exact ⟨inGrammar_of_derived hderived, hderived⟩

/-- The registry after a pet has been stored. -/
def petStored : Registry :=
  { names := { taken := ["PetInput", "Query", "Mutation", "JSON"]
               reserved := ["PetInput", "Pet", "PetInputInput", "PetInput"] }
    assigned := [((.input, "Pet"), .named "PetInput")]
    inputs := [("PetInput", some { name := "PetInput", members := [
      { name := "name", type := .named "String" }], description := none })] }

/-- The draft is to be answered, after the pet has been stored. -/
def draftTask : Task :=
  ⟨.output, .reference "#/components/schemas/PetInput", "Drafts"⟩

theorem comesTo_draftTask : ComesTo draftComponents draftEndpoints draftTask 18 petStored := by
  have hrun : rootFields draftComponents {} (draftEndpoints.take 1)
      (.start draftComponents.schemas.keys) = .ok ({ mutation := draftSchema.objects[1].fields },
        petStored) := by decide +kernel
  have hnext : IsNext draftComponents draftEndpoints draftEndpoints[1] petStored :=
    ⟨draftEndpoints.take 1, [], _, rfl, hrun⟩
  have hhint : typeName draftEndpoints[1].fieldName = "Drafts" := by decide +kernel
  have hcomes := ComesTo.answer hnext rfl
  rw [hhint] at hcomes
  exact hcomes

/-- A digit at the start is guarded, and more is put behind the name.  The draft would like to be
called after its component, a name that the stored pet was given, and gets a number. -/
theorem derivedNames_drafts :
    fieldName "2fa" = "_2Fa" ∧ DerivedFrom "_2Fa" "_2FaItemInput" ∧ InGrammar "_2FaItemInput" ∧
      (draftTask.names draftComponents (some "PetInput") petStored).take 3 =
        ["Drafts", "PetInput2", "PetInput"] ∧
      (∀ name ∈ draftTask.names draftComponents (some "PetInput") petStored, InGrammar name) ∧
      schemaOf draftDocument = .ok draftSchema ∧
        ∀ name ∈ draftSchema.typeNames, InGrammar name := by
  have hfa : fieldName "2fa" = "_2Fa" := by decide +kernel
  have hderived : DerivedFrom "_2Fa" "_2FaItemInput" := .tail (.tail .refl .item) .input
  have hschema : schemaOf draftDocument = .ok draftSchema := by decide +kernel
  have hstart : InGrammar "_2Fa" := hfa ▸ (derivedNames_inGrammar.1 "2fa").1
  refine ⟨hfa, hderived, ?_, by decide +kernel, fun name hname => ?_, hschema, fun name hname => ?_⟩
  · exact derivedNames_inGrammar.2.1 _ _ hstart hderived
  · exact (derivedNames_inGrammar.2.2.1 _ _ _ _ _ _ comesTo_draftTask name hname).1
  · exact (derivedNames_inGrammar.2.2.2 _ _ hschema name hname).1

end ApiGraph.Generation
