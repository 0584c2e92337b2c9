import ApiGraph.Proofs.Generation.Fields

/-!
# Where faults come from

A fault that is no problem of the document is one of a schema that was worked on for an endpoint, or
the roots got two fields of the same name.  `fault_of_rootFields` follows it back to there.
-/

namespace ApiGraph.Generation

open ApiGraph.GraphQL hiding Schema
open ApiGraph.OpenApi (RefOr Schema Components Endpoint EndpointParameter EndpointBody)

/-- The schemas that types for the endpoint are found for, each in its position: those of its
answer, of a parameter, and of its body. -/
inductive WorksOn (e : Endpoint) : Position → RefOr Schema → Prop
  | response {a : RefOr Schema} (h : a ∈ e.response) : WorksOn e .output a
  | parameter {p : EndpointParameter} {a : RefOr Schema} (hp : p ∈ e.parameters)
      (h : a ∈ p.schema) : WorksOn e .input a
  | body {b : EndpointBody} (h : b ∈ e.body) : WorksOn e .input b.schema

/-- Finding the type of the schema in the position ends in the fault, with some registry. -/
def Fails (c : Components) (position : Position) (a : RefOr Schema) (f : Fault) : Prop :=
  ∃ hint r, schemaType c position a hint r = .error f

variable {c : Components} {r : Registry} {f : Fault}

/-! ## Fields -/

theorem fails_of_optionalType {position : Position} {schema : Option (RefOr Schema)} {hint : String}
    (h : optionalType c position schema hint r = .error f) :
    ∃ a ∈ schema, Fails c position a f := by
  cases schema with
  | none => exact nomatch h
  | some a => exact ⟨a, rfl, hint, r, h⟩

theorem problem_of_addArgument {field : String} {arguments : List InputValue} {a : InputValue}
    (h : addArgument field arguments a = .error f) : ∃ p, f = .problem p :=
  ⟨_, (guarded_eq_error.mp h).2⟩

theorem fails_of_parameterArguments {field base : String} {ps : List EndpointParameter}
    {arguments : List InputValue} (hf : ∀ p, f ≠ .problem p)
    (h : parameterArguments c field base arguments ps r = .error f) :
    ∃ p ∈ ps, ∃ a ∈ p.schema, Fails c .input a f := by
  induction ps generalizing arguments r with
  | nil => exact nomatch h
  | cons p rest ih =>
    rcases bind_eq_error.mp h with h | ⟨⟨type, r₁⟩, -, h⟩
    · exact ⟨p, List.mem_cons_self .., fails_of_optionalType h⟩
    rcases bind_eq_error.mp h with h | ⟨arguments', -, h⟩
    · obtain ⟨problem, hproblem⟩ := problem_of_addArgument h
      exact absurd hproblem (hf problem)
    · obtain ⟨q, hq, hfails⟩ := ih h
      exact ⟨q, List.mem_cons_of_mem _ hq, hfails⟩

theorem problem_of_bodyBase {base : String} {schema : RefOr Schema}
    (h : bodyBase c base schema = .error f) : ∃ p, f = .problem p := by
  cases schema with
  | item _ => exact nomatch h
  | reference target =>
    obtain ⟨p, -, hp⟩ := mapError_eq_error.mp h
    exact ⟨p, hp.symm⟩

theorem fails_of_bodyArgument {field base : String} {arguments : List InputValue}
    {body : Option EndpointBody} (hf : ∀ p, f ≠ .problem p)
    (h : bodyArgument c field base arguments body r = .error f) :
    ∃ b ∈ body, Fails c .input b.schema f := by
  cases body with
  | none => exact nomatch h
  | some b =>
    rcases bind_eq_error.mp h with h | ⟨hint, -, h⟩
    · obtain ⟨problem, hproblem⟩ := problem_of_bodyBase h
      exact absurd hproblem (hf problem)
    rcases bind_eq_error.mp h with h | ⟨⟨type, r₁⟩, -, h⟩
    · exact ⟨b, rfl, hint, r, h⟩
    have hadd := (bind_eq_error_of_ok fun _ => ⟨_, rfl⟩).mp h
    obtain ⟨problem, hproblem⟩ := problem_of_addArgument hadd
    exact absurd hproblem (hf problem)

theorem fails_of_endpointField {e : Endpoint} (hf : ∀ p, f ≠ .problem p)
    (h : endpointField c e r = .error f) :
    ∃ position a, WorksOn e position a ∧ Fails c position a f := by
  rcases bind_eq_error.mp h with h | ⟨⟨type, r₁⟩, -, h⟩
  · obtain ⟨a, ha, hfails⟩ := fails_of_optionalType h
    exact ⟨.output, a, .response ha, hfails⟩
  rcases bind_eq_error.mp h with h | ⟨⟨arguments, r₂⟩, -, h⟩
  · obtain ⟨p, hp, a, ha, hfails⟩ := fails_of_parameterArguments hf h
    exact ⟨.input, a, .parameter hp ha, hfails⟩
  have hbody := (bind_eq_error_of_ok fun _ => ⟨_, rfl⟩).mp h
  obtain ⟨b, hb, hfails⟩ := fails_of_bodyArgument hf hbody
  exact ⟨.input, b.schema, .body hb, hfails⟩

/-! ## Roots -/

/-- The names of the fields that a root has and gets. -/
def pendingNames (fields : List Field) (endpoints : List Endpoint) : List String :=
  fields.map (·.name) ++ endpoints.map (·.fieldName)

theorem pendingNames_push_query {roots : Roots} {e : Endpoint} {f : Field}
    (h : f.name = e.fieldName) (rest : List Endpoint) :
    pendingNames (roots.push e f).query (rest.filter (·.isQuery)) =
      pendingNames roots.query ((e :: rest).filter (·.isQuery)) := by
  rw [pendingNames, pendingNames, query_push, List.filter_cons]
  cases e.isQuery <;> simp [h]

theorem pendingNames_push_mutation {roots : Roots} {e : Endpoint} {f : Field}
    (h : f.name = e.fieldName) (rest : List Endpoint) :
    pendingNames (roots.push e f).mutation (rest.filter (!·.isQuery)) =
      pendingNames roots.mutation ((e :: rest).filter (!·.isQuery)) := by
  rw [pendingNames, pendingNames, mutation_push, List.filter_cons]
  cases e.isQuery <;> simp [h]

theorem not_nodup_pendingNames {fields : List Field} {e : Endpoint} (rest : List Endpoint)
    (h : e.fieldName ∈ fields.map (·.name)) : ¬ (pendingNames fields (e :: rest)).Nodup :=
  fun hnodup => List.disjoint_of_nodup_append hnodup h (List.mem_cons_self ..)

/-- One of the roots would get two fields of the same name. -/
def RootsClash (roots : Roots) (endpoints : List Endpoint) : Prop :=
  ¬ (pendingNames roots.query (endpoints.filter (·.isQuery))).Nodup ∨
    ¬ (pendingNames roots.mutation (endpoints.filter (!·.isQuery))).Nodup

theorem rootsClash_of_add {roots : Roots} {e : Endpoint} {field : Field}
    (hname : field.name = e.fieldName) (rest : List Endpoint)
    (h : roots.add e field = .error f) :
    f = .duplicateField field.name ∧ RootsClash roots (e :: rest) := by
  obtain ⟨hmem, hf⟩ := add_eq_error.mp h
  refine ⟨hf, ?_⟩
  rw [hname, Roots.fieldsFor] at hmem
  rw [RootsClash, List.filter_cons, List.filter_cons]
  cases he : e.isQuery with
  | true =>
    rw [he] at hmem
    exact Or.inl (not_nodup_pendingNames _ hmem)
  | false =>
    rw [he] at hmem
    exact Or.inr (not_nodup_pendingNames _ hmem)

theorem fault_of_rootFields {endpoints : List Endpoint} {roots : Roots} (hf : ∀ p, f ≠ .problem p)
    (h : rootFields c roots endpoints r = .error f) :
    (∃ e ∈ endpoints, ∃ position a, WorksOn e position a ∧ Fails c position a f) ∨
      (∃ name, f = .duplicateField name) ∧ RootsClash roots endpoints := by
  induction endpoints generalizing roots r with
  | nil => exact nomatch h
  | cons e rest ih =>
    rcases bind_eq_error.mp h with h | ⟨⟨field, r₁⟩, hfield, h⟩
    · exact Or.inl ⟨e, List.mem_cons_self .., fails_of_endpointField hf h⟩
    have hnames := names_of_makesField (makes_of_endpointField hfield)
    have hname : field.name = e.fieldName := congrArg Prod.fst hnames
    rcases bind_eq_error.mp h with h | ⟨roots', hadd, h⟩
    · obtain ⟨hduplicate, hclash⟩ := rootsClash_of_add hname rest h
      exact Or.inr ⟨⟨_, hduplicate⟩, hclash⟩
    · obtain ⟨-, rfl⟩ := add_eq_ok.mp hadd
      rcases ih h with ⟨e', he', hfails⟩ | ⟨hduplicate, hclash⟩
      · exact Or.inl ⟨e', List.mem_cons_of_mem _ he', hfails⟩
      · rw [RootsClash, pendingNames_push_query hname, pendingNames_push_mutation hname] at hclash
        exact Or.inr ⟨hduplicate, hclash⟩

/-- A fault of a document that is no problem of it comes from the roots. -/
theorem fault_of_schemaOf {j : Json} (hf : ∀ p, f ≠ .problem p) (h : schemaOf j = .error f) :
    ∃ d endpoints, documentOf j = .ok d ∧ d.endpoints = .ok endpoints ∧
      rootFields d.components {} endpoints (.start d.components.schemas.keys) = .error f := by
  rcases bind_eq_error.mp h with h | ⟨d, hdocument, h⟩
  · obtain ⟨p, -, hp⟩ := mapError_eq_error.mp h
    exact absurd hp.symm (hf p)
  rcases bind_eq_error.mp h with h | ⟨endpoints, hendpoints, h⟩
  · obtain ⟨p, -, hp⟩ := mapError_eq_error.mp h
    exact absurd hp.symm (hf p)
  refine ⟨d, endpoints, mapError_eq_ok.mp hdocument, mapError_eq_ok.mp hendpoints, ?_⟩
  rcases bind_eq_error.mp h with h | ⟨schema, -, h⟩
  · rcases bind_eq_error.mp h with h | ⟨⟨roots, r⟩, -, h⟩
    · exact h
    · exact nomatch h
  · split at h
    · exact absurd (Except.error.inj h).symm (hf _)
    · exact nomatch h

end ApiGraph.Generation
