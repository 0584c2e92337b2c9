import ApiGraph.Generation.SchemaOf
import ApiGraph.Proofs.Generation.Making
import ApiGraph.Proofs.Lists
import Mathlib.Logic.Relation

/-!
# How fields are made

The fields of the roots are made endpoint by endpoint, and the arguments of a field parameter by
parameter.  Each step that succeeds is one type, made by `Makes`, and one name that is new.

The names of the arguments do not depend on the types: `Endpoint.argumentNames` lists them, for the
body as far as its reference can be followed.

For the registry it does not matter which field a type is for: the registry of all fields comes from
the first one by steps that make one type each, and a step says what its type is called after
(`MakesFields.steps`).  So what every step keeps, a run keeps (`keeps_of_steps`).
-/

namespace ApiGraph.Generation

open ApiGraph.GraphQL hiding Schema
open ApiGraph.OpenApi (RefOr Schema Components Endpoint EndpointParameter EndpointBody)

variable {c : Components} {r r' : Registry} {type : TypeRef}

/-! ## Types -/

/-- Makes the type of a schema in a position; without a schema it is a string. -/
inductive MakesOptional (c : Components) (position : Position) :
    Option (RefOr Schema) → String → Registry → TypeRef → Registry → Prop
  | none {hint : String} {r : Registry} :
      MakesOptional c position none hint r (.named "String") r
  | some {schema : RefOr Schema} {hint : String} {r r' : Registry} {type : TypeRef}
      (h : Makes ⟨c, position⟩ schema hint r type r') :
      MakesOptional c position (some schema) hint r type r'

theorem makes_of_schemaType {position : Position} {schema : RefOr Schema} {hint : String}
    (h : schemaType c position schema hint r = .ok (type, r')) :
    Makes ⟨c, position⟩ schema hint r type r' :=
  makes_of_typeOf h

theorem makes_of_optionalType {position : Position} {schema : Option (RefOr Schema)} {hint : String}
    (h : optionalType c position schema hint r = .ok (type, r')) :
    MakesOptional c position schema hint r type r' := by
  cases schema with
  | none =>
    obtain ⟨rfl, rfl⟩ := Prod.mk.inj (Except.ok.inj h)
    exact .none
  | some schema => exact .some (makes_of_schemaType h)

/-! ## Arguments -/

theorem addArgument_eq_ok {field : String} {arguments arguments' : List InputValue}
    {a : InputValue} :
    addArgument field arguments a = .ok arguments' ↔
      a.name ∉ arguments.map (·.name) ∧ arguments' = arguments ++ [a] := by
  rw [addArgument, guarded_eq_ok, any_name_iff]

/-- The name of the argument for a parameter, beside arguments with the known names. -/
def parameterName (known : List String) (p : EndpointParameter) : String :=
  if fieldName p.name ∈ known then fieldName (p.name ++ " " ++ p.location.name)
  else fieldName p.name

theorem argumentName_eq (arguments : List InputValue) (p : EndpointParameter) :
    argumentName arguments p = parameterName (arguments.map (·.name)) p := by
  rw [argumentName, parameterName]
  simp only [any_name_iff]

/-- The argument for a parameter with a type. -/
def parameterArgument (arguments : List InputValue) (p : EndpointParameter) (type : TypeRef) :
    InputValue :=
  { name := parameterName (arguments.map (·.name)) p
    type := type.excludeNullIf p.required
    description := p.description }

/-- The parameters become arguments, behind those that are there. -/
inductive MakesArguments (c : Components) (base : String) :
    List InputValue → List EndpointParameter → Registry → List InputValue → Registry → Prop
  | nil {arguments : List InputValue} {r : Registry} :
      MakesArguments c base arguments [] r arguments r
  | cons {arguments arguments' : List InputValue} {p : EndpointParameter}
      {rest : List EndpointParameter} {r r₁ r' : Registry} {type : TypeRef}
      (htype : MakesOptional c .input p.schema (propertyHint base p.name) r type r₁)
      (hname : parameterName (arguments.map (·.name)) p ∉ arguments.map (·.name))
      (hrest : MakesArguments c base (arguments ++ [parameterArgument arguments p type]) rest r₁
        arguments' r') :
      MakesArguments c base arguments (p :: rest) r arguments' r'

theorem makes_of_parameterArguments {field base : String} {ps : List EndpointParameter}
    {arguments arguments' : List InputValue}
    (h : parameterArguments c field base arguments ps r = .ok (arguments', r')) :
    MakesArguments c base arguments ps r arguments' r' := by
  induction ps generalizing arguments r with
  | nil =>
    obtain ⟨rfl, rfl⟩ := Prod.mk.inj (Except.ok.inj h)
    exact .nil
  | cons p ps ih =>
    rw [parameterArguments] at h
    obtain ⟨⟨type, r₁⟩, htype, h⟩ := bind_eq_ok.mp h
    obtain ⟨_, hadd, h⟩ := bind_eq_ok.mp h
    obtain ⟨hname, rfl⟩ := addArgument_eq_ok.mp hadd
    rw [argumentName_eq] at h hname
    exact .cons (makes_of_optionalType htype) hname (ih h)

/-- The argument for a body with a type. -/
def argumentForBody (b : EndpointBody) (hint : String) (type : TypeRef) : InputValue :=
  { name := fieldName (b.component.getD hint ++ " input")
    type := type.excludeNullIf b.required }

/-- The body becomes an argument behind those that are there. -/
inductive MakesBody (c : Components) (base : String) (arguments : List InputValue) :
    Option EndpointBody → Registry → List InputValue → Registry → Prop
  | none {r : Registry} : MakesBody c base arguments none r arguments r
  | some {b : EndpointBody} {hint : String} {r r' : Registry} {type : TypeRef}
      (hhint : bodyBase c base b.schema = .ok hint)
      (htype : Makes ⟨c, .input⟩ b.schema hint r type r')
      (hname : (argumentForBody b hint type).name ∉ arguments.map (·.name)) :
      MakesBody c base arguments (some b) r (arguments ++ [argumentForBody b hint type]) r'

theorem makes_of_bodyArgument {field base : String} {arguments arguments' : List InputValue}
    {body : Option EndpointBody}
    (h : bodyArgument c field base arguments body r = .ok (arguments', r')) :
    MakesBody c base arguments body r arguments' r' := by
  cases body with
  | none =>
    obtain ⟨rfl, rfl⟩ := Prod.mk.inj (Except.ok.inj h)
    exact .none
  | some b =>
    obtain ⟨hint, hhint, h⟩ := bind_eq_ok.mp h
    obtain ⟨⟨type, r₁⟩, htype, h⟩ := bind_eq_ok.mp h
    obtain ⟨_, hadd, h⟩ := bind_eq_ok.mp h
    obtain ⟨hname, rfl⟩ := addArgument_eq_ok.mp hadd
    obtain ⟨rfl, rfl⟩ := Prod.mk.inj (Except.ok.inj h)
    exact .some hhint (makes_of_schemaType htype) hname

/-! ## Fields -/

/-- The endpoint becomes a field. -/
inductive MakesField (c : Components) (e : Endpoint) : Registry → Field → Registry → Prop
  | mk {r r₁ r₂ r' : Registry} {type : TypeRef} {arguments arguments' : List InputValue}
      (htype : MakesOptional c .output e.response (typeName e.fieldName) r type r₁)
      (harguments : MakesArguments c (typeName e.fieldName) [] e.parameters r₁ arguments r₂)
      (hbody : MakesBody c (typeName e.fieldName) arguments e.body r₂ arguments' r') :
      MakesField c e r
        { name := e.fieldName, type, arguments := arguments', description := e.description } r'

theorem makes_of_endpointField {e : Endpoint} {f : Field}
    (h : endpointField c e r = .ok (f, r')) : MakesField c e r f r' := by
  obtain ⟨⟨type, r₁⟩, htype, h⟩ := bind_eq_ok.mp h
  obtain ⟨⟨arguments, r₂⟩, harguments, h⟩ := bind_eq_ok.mp h
  obtain ⟨⟨arguments', r₃⟩, hbody, h⟩ := bind_eq_ok.mp h
  obtain ⟨rfl, rfl⟩ := Prod.mk.inj (Except.ok.inj h)
  exact .mk (makes_of_optionalType htype) (makes_of_parameterArguments harguments)
    (makes_of_bodyArgument hbody)

theorem addField_eq_ok {fields fields' : List Field} {f : Field} :
    addField fields f = .ok fields' ↔
      f.name ∉ fields.map (·.name) ∧ fields' = fields ++ [f] := by
  rw [addField, guarded_eq_ok, any_name_iff]

theorem addField_eq_error {fields : List Field} {f : Field} {e : Fault} :
    addField fields f = .error e ↔
      f.name ∈ fields.map (·.name) ∧ e = .duplicateField f.name := by
  rw [addField, guarded_eq_error, any_name_iff]

/-- The fields of the root that the endpoint belongs to. -/
def Roots.fieldsFor (roots : Roots) (e : Endpoint) : List Field :=
  if e.isQuery then roots.query else roots.mutation

/-- The roots with one more field for the endpoint. -/
def Roots.push (roots : Roots) (e : Endpoint) (f : Field) : Roots :=
  if e.isQuery then { roots with query := roots.query ++ [f] }
  else { roots with mutation := roots.mutation ++ [f] }

theorem query_push (roots : Roots) (e : Endpoint) (f : Field) :
    (roots.push e f).query = roots.query ++ if e.isQuery then [f] else [] := by
  unfold Roots.push
  cases e.isQuery <;> simp

theorem mutation_push (roots : Roots) (e : Endpoint) (f : Field) :
    (roots.push e f).mutation = roots.mutation ++ if e.isQuery then [] else [f] := by
  unfold Roots.push
  cases e.isQuery <;> simp

theorem mem_push {roots : Roots} {e : Endpoint} {f g : Field} :
    g ∈ (roots.push e f).query ∨ g ∈ (roots.push e f).mutation ↔
      (g ∈ roots.query ∨ g ∈ roots.mutation) ∨ g = f := by
  rw [query_push, mutation_push]
  cases e.isQuery <;> simp [or_assoc, or_comm, or_left_comm]

theorem add_eq_ok {roots roots' : Roots} {e : Endpoint} {f : Field} :
    roots.add e f = .ok roots' ↔
      f.name ∉ (roots.fieldsFor e).map (·.name) ∧ roots' = roots.push e f := by
  unfold Roots.add Roots.fieldsFor Roots.push
  cases e.isQuery with
  | true =>
    simp only [if_true, map_eq_ok, addField_eq_ok]
    exact ⟨fun ⟨_, ⟨hname, heq⟩, h⟩ => ⟨hname, heq ▸ h.symm⟩,
      fun ⟨hname, h⟩ => ⟨_, ⟨hname, rfl⟩, h.symm⟩⟩
  | false =>
    simp only [Bool.false_eq_true, if_false, map_eq_ok, addField_eq_ok]
    exact ⟨fun ⟨_, ⟨hname, heq⟩, h⟩ => ⟨hname, heq ▸ h.symm⟩,
      fun ⟨hname, h⟩ => ⟨_, ⟨hname, rfl⟩, h.symm⟩⟩

theorem add_eq_error {roots : Roots} {e : Endpoint} {f : Field} {fault : Fault} :
    roots.add e f = .error fault ↔
      f.name ∈ (roots.fieldsFor e).map (·.name) ∧ fault = .duplicateField f.name := by
  unfold Roots.add Roots.fieldsFor
  cases e.isQuery with
  | true => simp only [if_true, map_eq_error, addField_eq_error]
  | false => simp only [Bool.false_eq_true, if_false, map_eq_error, addField_eq_error]

/-- The endpoints become fields of the roots, behind those that are there. -/
inductive MakesFields (c : Components) :
    Roots → List Endpoint → Registry → Roots → Registry → Prop
  | nil {roots : Roots} {r : Registry} : MakesFields c roots [] r roots r
  | cons {roots roots' : Roots} {e : Endpoint} {rest : List Endpoint} {r r₁ r' : Registry}
      {f : Field} (hfield : MakesField c e r f r₁)
      (hname : f.name ∉ (roots.fieldsFor e).map (·.name))
      (hrest : MakesFields c (roots.push e f) rest r₁ roots' r') :
      MakesFields c roots (e :: rest) r roots' r'

theorem makes_of_rootFields {endpoints : List Endpoint} {roots roots' : Roots}
    (h : rootFields c roots endpoints r = .ok (roots', r')) :
    MakesFields c roots endpoints r roots' r' := by
  induction endpoints generalizing roots r with
  | nil =>
    obtain ⟨rfl, rfl⟩ := Prod.mk.inj (Except.ok.inj h)
    exact .nil
  | cons e rest ih =>
    obtain ⟨⟨f, r₁⟩, hfield, h⟩ := bind_eq_ok.mp h
    obtain ⟨_, hadd, h⟩ := bind_eq_ok.mp h
    obtain ⟨hname, rfl⟩ := add_eq_ok.mp hadd
    exact .cons (makes_of_endpointField hfield) hname (ih h)

/-! ## Steps -/

open Relation (ReflTransGen)

/-- What the types for the arguments of a field are called after: the type for a parameter after the
field and the parameter, the one for the body after its component or the field. -/
inductive ArgumentHint (c : Components) (base : String) : String → Prop
  | parameter (name : String) : ArgumentHint c base (propertyHint base name)
  | body {schema : RefOr Schema} {hint : String} (h : bodyBase c base schema = .ok hint) :
      ArgumentHint c base hint

/-- The registry after the type of one schema of the endpoints has been made. -/
inductive Step (c : Components) (endpoints : List Endpoint) (r r' : Registry) : Prop
  | answer {e : Endpoint} {a : RefOr Schema} {type : TypeRef} (he : e ∈ endpoints)
      (ha : a ∈ e.response) (h : Makes ⟨c, .output⟩ a (typeName e.fieldName) r type r')
  | argument {e : Endpoint} {a : RefOr Schema} {hint : String} {type : TypeRef}
      (he : e ∈ endpoints) (hhint : ArgumentHint c (typeName e.fieldName) hint)
      (h : Makes ⟨c, .input⟩ a hint r type r')

variable {endpoints : List Endpoint} {e : Endpoint}

theorem MakesOptional.steps_input {schema : Option (RefOr Schema)} {hint : String}
    (he : e ∈ endpoints) (hhint : ArgumentHint c (typeName e.fieldName) hint)
    (h : MakesOptional c .input schema hint r type r') :
    ReflTransGen (Step c endpoints) r r' := by
  cases h with
  | none => exact .refl
  | some h => exact .single (.argument he hhint h)

theorem MakesOptional.steps_output (he : e ∈ endpoints)
    (h : MakesOptional c .output e.response (typeName e.fieldName) r type r') :
    ReflTransGen (Step c endpoints) r r' := by
  cases hresponse : e.response with
  | none =>
    rw [hresponse] at h
    cases h
    exact .refl
  | some a =>
    rw [hresponse] at h
    cases h with
    | some h => exact .single (.answer he hresponse h)

theorem MakesArguments.steps {ps : List EndpointParameter} {arguments arguments' : List InputValue}
    (he : e ∈ endpoints)
    (h : MakesArguments c (typeName e.fieldName) arguments ps r arguments' r') :
    ReflTransGen (Step c endpoints) r r' := by
  induction h with
  | nil => exact .refl
  | cons htype _ _ ih => exact (htype.steps_input he (.parameter _)).trans ih

theorem MakesBody.steps {body : Option EndpointBody} {arguments arguments' : List InputValue}
    (he : e ∈ endpoints) (h : MakesBody c (typeName e.fieldName) arguments body r arguments' r') :
    ReflTransGen (Step c endpoints) r r' := by
  cases h with
  | none => exact .refl
  | some hhint htype _ => exact .single (.argument he (.body hhint) htype)

theorem MakesField.steps {f : Field} (he : e ∈ endpoints) (h : MakesField c e r f r') :
    ReflTransGen (Step c endpoints) r r' := by
  obtain ⟨htype, harguments, hbody⟩ := h
  exact (htype.steps_output he).trans ((harguments.steps he).trans (hbody.steps he))

theorem Step.mono {endpoints' : List Endpoint} (h : Step c endpoints r r')
    (hsubset : endpoints ⊆ endpoints') : Step c endpoints' r r' := by
  cases h with
  | answer he ha h => exact .answer (hsubset he) ha h
  | argument he hhint h => exact .argument (hsubset he) hhint h

/-- The types of fields are made one after the other. -/
theorem MakesFields.steps {roots roots' : Roots} (h : MakesFields c roots endpoints r roots' r') :
    ReflTransGen (Step c endpoints) r r' := by
  induction h with
  | nil => exact .refl
  | @cons _ _ e rest _ _ _ _ hfield _ _ ih =>
    have hrest := ReflTransGen.mono (fun _ _ h => Step.mono h (List.subset_cons_self e rest)) _ _ ih
    exact (hfield.steps (List.mem_cons_self ..)).trans hrest

/-- What every step keeps is kept by all of them together. -/
theorem keeps_of_steps {P : Registry → Prop} (hkeeps : ∀ r r', Step c endpoints r r' → P r → P r')
    (hsteps : ReflTransGen (Step c endpoints) r r') (h : P r) : P r' := by
  induction hsteps with
  | refl => exact h
  | tail _ hstep ih => exact hkeeps _ _ hstep ih

/-! ## Names of fields and arguments -/

/-- The names of the arguments for parameters, behind known ones. -/
def parameterNames (known : List String) : List EndpointParameter → List String
  | [] => known
  | p :: rest => parameterNames (known ++ [parameterName known p]) rest

/-- What the argument for a body is called after, if its reference cannot be followed: nothing. -/
def bodyName (c : Components) (base : String) (b : EndpointBody) : String :=
  let hint := match bodyBase c base b.schema with
    | .ok hint => hint
    | .error _ => ""
  fieldName (b.component.getD hint ++ " input")

/-- The names of the arguments that an endpoint gets: those for its parameters, and then the one for
its body. -/
def argumentNames (c : Components) (e : Endpoint) : List String :=
  parameterNames [] e.parameters ++
    (e.body.map (bodyName c (typeName e.fieldName))).toList

theorem names_of_makesArguments {base : String} {ps : List EndpointParameter}
    {arguments arguments' : List InputValue}
    (h : MakesArguments c base arguments ps r arguments' r') :
    arguments'.map (·.name) = parameterNames (arguments.map (·.name)) ps := by
  induction h with
  | nil => rfl
  | cons htype hname hrest ih =>
    rw [ih, parameterNames, List.map_append]
    rfl

theorem names_of_makesBody {base : String} {body : Option EndpointBody}
    {arguments arguments' : List InputValue} (h : MakesBody c base arguments body r arguments' r') :
    arguments'.map (·.name) = arguments.map (·.name) ++ (body.map (bodyName c base)).toList := by
  cases h with
  | none => exact (List.append_nil _).symm
  | some hhint htype hname =>
    rw [List.map_append, Option.map_some, Option.toList_some, bodyName, hhint]
    rfl

/-- The names that matter of a field: its own and those of its arguments. -/
def fieldNames (f : Field) : String × List String :=
  (f.name, f.arguments.map (·.name))

/-- The names that an endpoint gives. -/
def endpointNames (c : Components) (e : Endpoint) : String × List String :=
  (e.fieldName, argumentNames c e)

theorem names_of_makesField {e : Endpoint} {f : Field} (h : MakesField c e r f r') :
    fieldNames f = endpointNames c e := by
  obtain ⟨_, harguments, hbody⟩ := h
  rw [fieldNames, endpointNames, names_of_makesBody hbody, names_of_makesArguments harguments]
  rfl

theorem MakesArguments.nodup {base : String} {ps : List EndpointParameter}
    {arguments arguments' : List InputValue}
    (hmakes : MakesArguments c base arguments ps r arguments' r')
    (h : (arguments.map (·.name)).Nodup) : (arguments'.map (·.name)).Nodup := by
  induction hmakes with
  | nil => exact h
  | cons _ hname _ ih => exact ih (nodup_map_append_singleton h hname)

theorem MakesBody.nodup {base : String} {body : Option EndpointBody}
    {arguments arguments' : List InputValue}
    (hmakes : MakesBody c base arguments body r arguments' r')
    (h : (arguments.map (·.name)).Nodup) : (arguments'.map (·.name)).Nodup := by
  cases hmakes with
  | none => exact h
  | some _ _ hname => exact nodup_map_append_singleton h hname

theorem MakesField.nodup_arguments {e : Endpoint} {f : Field} (hmakes : MakesField c e r f r') :
    (f.arguments.map (·.name)).Nodup := by
  obtain ⟨_, harguments, hbody⟩ := hmakes
  exact hbody.nodup (harguments.nodup List.nodup_nil)

/-- The fields of the roots are those of the endpoints, in order. -/
theorem names_of_makesFields {endpoints : List Endpoint} {roots roots' : Roots}
    (h : MakesFields c roots endpoints r roots' r') :
    roots'.query.map fieldNames =
        roots.query.map fieldNames ++ (endpoints.filter (·.isQuery)).map (endpointNames c) ∧
      roots'.mutation.map fieldNames =
        roots.mutation.map fieldNames ++ (endpoints.filter (!·.isQuery)).map (endpointNames c) := by
  induction h with
  | nil => simp
  | @cons roots roots' e rest r r₁ r' f hfield _ _ ih =>
    have hnames := names_of_makesField hfield
    rw [ih.1, ih.2, query_push, mutation_push]
    cases he : e.isQuery <;> simp [he, hnames]

/-! ## Schemas -/

/-- A schema is put together from the endpoints of a document. -/
inductive MakesSchema (j : Json) : GraphQL.Schema → Prop
  | mk {d : OpenApi.Document} {endpoints : List Endpoint} {roots : Roots} {r : Registry}
      (hdocument : documentOf j = .ok d) (hendpoints : d.endpoints = .ok endpoints)
      (hfields : MakesFields d.components {} endpoints (.start d.components.schemas.keys) roots r)
      (hvalid : (assemble roots r).violation? = none) :
      MakesSchema j (assemble roots r)

/-- A schema comes from a run over the endpoints of a document. -/
theorem rootFields_of_schemaOf {j : Json} {schema : GraphQL.Schema} (h : schemaOf j = .ok schema) :
    ∃ d endpoints roots r, documentOf j = .ok d ∧ d.endpoints = .ok endpoints ∧
      rootFields d.components {} endpoints (.start d.components.schemas.keys) = .ok (roots, r) ∧
        schema = assemble roots r ∧ schema.violation? = none := by
  obtain ⟨d, hdocument, h⟩ := bind_eq_ok.mp h
  obtain ⟨endpoints, hendpoints, h⟩ := bind_eq_ok.mp h
  obtain ⟨_, hassembled, h⟩ := bind_eq_ok.mp h
  obtain ⟨⟨roots, r⟩, hfields, heq⟩ := bind_eq_ok.mp hassembled
  obtain rfl := Except.ok.inj heq
  refine ⟨d, endpoints, roots, r, mapError_eq_ok.mp hdocument, mapError_eq_ok.mp hendpoints,
    hfields, ?_⟩
  cases hvalid : (assemble roots r).violation? with
  | some v =>
    rw [hvalid] at h
    exact nomatch h
  | none =>
    rw [hvalid] at h
    obtain rfl := Except.ok.inj h
    exact ⟨rfl, hvalid⟩

theorem makes_of_schemaOf {j : Json} {schema : GraphQL.Schema} (h : schemaOf j = .ok schema) :
    MakesSchema j schema := by
  obtain ⟨d, endpoints, roots, r, hdocument, hendpoints, hfields, rfl, hvalid⟩ :=
    rootFields_of_schemaOf h
  exact .mk hdocument hendpoints (makes_of_rootFields hfields) hvalid

end ApiGraph.Generation
