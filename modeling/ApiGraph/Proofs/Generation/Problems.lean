import ApiGraph.Proofs.Generation.Fields

/-!
# Which step reports what

A document is worked on in steps, and each of them has problems of its own: reading the document,
following its references on the way to the endpoints, making types, making fields, and the check of
the schema at the end.  `Reports p x` says that the outcome `x`, if it is an error, satisfies `p`.

No step but the last reports that a schema is invalid, so a document with an invalid schema is one
for which all fields have been made (`invalidSchema_iff`).  Once a document was read, no step
reports that it cannot be read (`reports_schemaOfDocument`).
-/

namespace ApiGraph.Generation

open ApiGraph.GraphQL hiding Schema
open ApiGraph.OpenApi (RefOr Schema Components Endpoint EndpointParameter EndpointBody Problem)

/-! ## Errors of sequences -/

/-- If the outcome is an error, that satisfies `p`. -/
structure Reports {ε α : Type} (p : ε → Prop) (x : Except ε α) : Prop where
  of_error : ∀ e, x = .error e → p e

namespace Reports

variable {ε ε' α β : Type} {p q : ε → Prop} {x : Except ε α}

theorem ok (a : α) : Reports p (.ok a : Except ε α) :=
  ⟨fun _ h => nomatch h⟩

theorem error {e : ε} (h : p e) : Reports p (.error e : Except ε α) := by
  refine ⟨fun _ heq => ?_⟩
  rw [← Except.error.inj heq]
  exact h

theorem mono (h : Reports p x) (hpq : ∀ e, p e → q e) : Reports q x :=
  ⟨fun e he => hpq e (h.of_error e he)⟩

theorem bind {f : α → Except ε β} (h : Reports p x) (hf : ∀ a, x = .ok a → Reports p (f a)) :
    Reports p (x >>= f) := by
  refine ⟨fun e he => ?_⟩
  rcases bind_eq_error.mp he with he | ⟨a, ha, he⟩
  · exact h.of_error e he
  · exact (hf a ha).of_error e he

theorem map {g : α → β} (h : Reports p x) : Reports p (x.map g) :=
  ⟨fun e he => h.of_error e (map_eq_error.mp he)⟩

theorem mapError {g : ε → ε'} {p' : ε' → Prop} (h : Reports (fun e => p' (g e)) x) :
    Reports p' (x.mapError g) := by
  refine ⟨fun e he => ?_⟩
  obtain ⟨e', he', rfl⟩ := mapError_eq_error.mp he
  exact h.of_error e' he'

theorem guarded {condition : Prop} [Decidable condition] {e : ε} (h : p e) (a : α) :
    Reports p (if condition then .error e else .ok a : Except ε α) := by
  refine ⟨fun f hf => ?_⟩
  rw [(guarded_eq_error.mp hf).2]
  exact h

theorem mapM {f : α → Except ε β} {l : List α} (h : ∀ a ∈ l, Reports p (f a)) :
    Reports p (l.mapM f) := by
  induction l with
  | nil => exact ok []
  | cons a l ih =>
    obtain ⟨hhead, htail⟩ := List.forall_mem_cons.mp h
    rw [List.mapM_cons]
    exact hhead.bind fun b _ => (ih htail).bind fun bs _ => ok (b :: bs)

end Reports

/-! ## Endpoints -/

/-- What is wrong with references, wherever they stand. -/
inductive ReferenceProblem : Problem → Prop
  | unresolved (reference : String) : ReferenceProblem (.unresolvedReference reference)
  | toReference (component : String) : ReferenceProblem (.referenceToReference component)
  | onPath (path : String) : ReferenceProblem (.pathReference path)

theorem reports_lookUp {α : Type} (kind : String) (components : Dictionary (RefOr α))
    (reference : String) : Reports ReferenceProblem (OpenApi.lookUp kind components reference) := by
  unfold OpenApi.lookUp
  split
  · exact .error (.unresolved reference)
  · split
    · exact .error (.unresolved reference)
    · exact .error (.toReference _)
    · exact .ok _

section Endpoints

open OpenApi.Endpoint

variable (c : Components)

theorem reports_resolveParameter (p : RefOr OpenApi.Parameter) :
    Reports ReferenceProblem (resolveParameter c p) := by
  cases p with
  | reference target => exact (reports_lookUp ..).map
  | item p => exact .ok p

theorem reports_ownParameters (ps : List (RefOr OpenApi.Parameter)) :
    Reports ReferenceProblem (ownParameters c ps) := by
  induction ps with
  | nil => exact .ok []
  | cons p rest ih =>
    exact (reports_resolveParameter c p).bind fun _ _ => ih.bind fun _ _ => .ok _

theorem reports_inheritParameters (known : List EndpointParameter)
    (ps : List (RefOr OpenApi.Parameter)) :
    Reports ReferenceProblem (inheritParameters c known ps) := by
  induction ps generalizing known with
  | nil => exact .ok known
  | cons p rest ih => exact (reports_resolveParameter c p).bind fun _ _ => ih _

theorem reports_resolveBody (body : Option (RefOr OpenApi.RequestBody)) :
    Reports ReferenceProblem (resolveBody c body) := by
  cases body with
  | none => exact .ok none
  | some body =>
    cases body with
    | item b => exact .ok _
    | reference target => exact Reports.bind (reports_lookUp ..).map fun _ _ => .ok _

theorem reports_resolveResponse (response : RefOr OpenApi.Response) :
    Reports ReferenceProblem (resolveResponse c response) := by
  cases response with
  | reference target => exact (reports_lookUp ..).map
  | item r => exact .ok r

theorem reports_firstAnswer (responses : List (OpenApi.Status × RefOr OpenApi.Response)) :
    Reports ReferenceProblem (firstAnswer c responses) := by
  induction responses with
  | nil => exact .ok none
  | cons head rest ih =>
    obtain ⟨status, response⟩ := head
    rw [firstAnswer]
    split
    · refine (reports_resolveResponse c response).bind fun found _ => ?_
      split
      · exact .ok _
      · exact ih
    · exact ih

theorem reports_ofOperation (path : String) (method : OpenApi.Method) (o : OpenApi.Operation)
    (inherited : List (RefOr OpenApi.Parameter)) :
    Reports ReferenceProblem (ofOperation c path method o inherited) :=
  (reports_resolveBody c o.requestBody).bind fun _ _ =>
    (reports_firstAnswer c o.responses).bind fun _ _ =>
      (reports_ownParameters c o.parameters).bind fun own _ =>
        (reports_inheritParameters c own inherited).bind fun _ _ => .ok _

theorem reports_endpointsOn (paths : List (String × RefOr OpenApi.PathItem)) :
    Reports ReferenceProblem (OpenApi.endpointsOn c paths) := by
  induction paths with
  | nil => exact .ok []
  | cons head rest ih =>
    obtain ⟨path, item⟩ := head
    cases item with
    | reference target => exact .error (.onPath path)
    | item item =>
      have hitem : Reports ReferenceProblem (item.endpoints c path) :=
        .mapM fun _ _ => reports_ofOperation c path _ _ item.parameters
      exact hitem.bind fun _ _ => ih.bind fun _ _ => .ok _

end Endpoints

/-! ## Types -/

/-- What can go wrong while the type of a schema is made. -/
inductive TypeFault : Fault → Prop
  | reference {p : Problem} (h : ReferenceProblem p) : TypeFault (.problem p)
  | items : TypeFault (.problem .arrayWithoutItems)
  | member (name : String) : TypeFault (.duplicateField name)
  | unbounded : TypeFault .unbounded

theorem reports_resolve (s : Setting) (schema : RefOr Schema) :
    Reports TypeFault (s.resolve schema) := by
  refine .mapError (Reports.mono ?_ fun p (h : ReferenceProblem p) => .reference h)
  cases schema with
  | reference target => exact (reports_lookUp ..).map
  | item schema => exact .ok _

section Objects

variable {make : RefOr Schema → String → Registry → Except Fault (TypeRef × Registry)}
  (hmake : ∀ schema hint r, Reports TypeFault (make schema hint r)) (s : Setting)
include hmake

theorem reports_membersOf (owner : String) (required : List String) (members : List InputValue)
    (properties : List (String × RefOr Schema)) (r : Registry) :
    Reports TypeFault (membersOf make s owner required members properties r) := by
  induction properties generalizing members r with
  | nil => exact .ok _
  | cons p rest ih =>
    obtain ⟨property, schema⟩ := p
    cases hresolve : s.resolve schema with
    | error f =>
      rw [membersOf_of_unresolved hresolve]
      exact .error ((reports_resolve s schema).of_error f hresolve)
    | ok found =>
      obtain ⟨component, resolved⟩ := found
      cases hhides : s.hides resolved.data with
      | true =>
        rw [membersOf_of_hides hresolve hhides]
        exact ih members r
      | false =>
        rw [membersOf_of_shows hresolve hhides]
        exact (hmake ..).bind fun _ _ => (Reports.guarded (.member _) _).bind fun _ _ => ih ..

theorem reports_objectType (component : Option String) (base : String) (data : OpenApi.SchemaData)
    (properties : List (String × RefOr Schema)) (required : List String) (r : Registry) :
    Reports TypeFault (objectType make s component base data properties required r) := by
  unfold objectType
  split
  · exact .ok _
  · exact (reports_membersOf hmake s ..).bind fun _ _ => .ok _

end Objects

theorem reports_typeOf (s : Setting) (bound : Nat) (schema : RefOr Schema) (hint : String)
    (r : Registry) : Reports TypeFault (typeOf s bound schema hint r) := by
  induction bound generalizing schema hint r with
  | zero => exact .error .unbounded
  | succ bound ih =>
    cases hresolve : s.resolve schema with
    | error f =>
      rw [typeOf_of_unresolved hresolve]
      exact .error ((reports_resolve s schema).of_error f hresolve)
    | ok found =>
      obtain ⟨component, resolved⟩ := found
      obtain ⟨_, hkind⟩ | hkind | hkind | ⟨items, hkind⟩ | ⟨properties, required, hkind, hsome⟩ :=
        kind_cases resolved.kind
      · rw [typeOf_of_scalar hresolve hkind]
        exact .ok _
      · rw [typeOf_of_shapeless hresolve hkind]
        exact .ok _
      · rw [typeOf_of_array_none hresolve hkind]
        exact .error .items
      · rw [typeOf_of_array hresolve hkind]
        exact (ih ..).bind fun _ _ => (reports_resolve s items).bind fun _ _ => .ok _
      · rw [typeOf_of_object hresolve hkind hsome]
        exact reports_objectType ih ..

section Fields

variable {c : Components}

theorem typeFault_optionalType (position : Position) (schema : Option (RefOr Schema))
    (hint : String) (r : Registry) : Reports TypeFault (optionalType c position schema hint r) := by
  cases schema with
  | none => exact .ok _
  | some schema => exact reports_typeOf ..

theorem typeFault_bodyBase (base : String) (schema : RefOr Schema) :
    Reports TypeFault (bodyBase c base schema) := by
  cases schema with
  | item _ => exact .ok base
  | reference target =>
    refine .mapError (Reports.map ?_)
    exact (reports_lookUp ..).mono fun _ h => .reference h

end Fields

/-! ## Fields -/

/-- What can go wrong while the fields of the roots are made. -/
inductive FieldFault : Fault → Prop
  | type {f : Fault} (h : TypeFault f) : FieldFault f
  | argument (field argument : String) : FieldFault (.problem (.duplicateArgument field argument))

variable {c : Components}

theorem reports_schemaType (position : Position) (schema : RefOr Schema) (hint : String)
    (r : Registry) : Reports FieldFault (schemaType c position schema hint r) :=
  (reports_typeOf ..).mono fun _ => .type

theorem reports_optionalType (position : Position) (schema : Option (RefOr Schema)) (hint : String)
    (r : Registry) : Reports FieldFault (optionalType c position schema hint r) :=
  (typeFault_optionalType ..).mono fun _ => .type

theorem reports_addArgument (field : String) (arguments : List InputValue) (a : InputValue) :
    Reports FieldFault (addArgument field arguments a) :=
  .guarded (.argument field a.name) _

theorem reports_parameterArguments (field base : String) (arguments : List InputValue)
    (ps : List EndpointParameter) (r : Registry) :
    Reports FieldFault (parameterArguments c field base arguments ps r) := by
  induction ps generalizing arguments r with
  | nil => exact .ok _
  | cons p rest ih =>
    exact (reports_optionalType ..).bind fun _ _ => (reports_addArgument ..).bind fun _ _ => ih ..

theorem reports_bodyBase (base : String) (schema : RefOr Schema) :
    Reports FieldFault (bodyBase c base schema) :=
  (typeFault_bodyBase ..).mono fun _ => .type

theorem reports_bodyArgument (field base : String) (arguments : List InputValue)
    (body : Option EndpointBody) (r : Registry) :
    Reports FieldFault (bodyArgument c field base arguments body r) := by
  cases body with
  | none => exact .ok _
  | some b =>
    exact (reports_bodyBase base b.schema).bind fun _ _ => (reports_schemaType ..).bind fun _ _ =>
      (reports_addArgument ..).bind fun _ _ => .ok _

theorem reports_endpointField (e : Endpoint) (r : Registry) :
    Reports FieldFault (endpointField c e r) :=
  (reports_optionalType ..).bind fun _ _ => (reports_parameterArguments ..).bind fun _ _ =>
    (reports_bodyArgument ..).bind fun _ _ => .ok _

theorem reports_add (roots : Roots) (e : Endpoint) (f : Field) :
    Reports FieldFault (roots.add e f) := by
  refine ⟨fun fault h => ?_⟩
  rw [(add_eq_error.mp h).2]
  exact .type (.member f.name)

theorem reports_rootFields (roots : Roots) (endpoints : List Endpoint) (r : Registry) :
    Reports FieldFault (rootFields c roots endpoints r) := by
  induction endpoints generalizing roots r with
  | nil => exact .ok _
  | cons e rest ih =>
    exact (reports_endpointField e r).bind fun made _ =>
      (reports_add roots e made.1).bind fun roots _ => ih roots made.2

/-! ## Schemas -/

theorem documentOf_ne_invalidSchema (j : Json) (v : Violation) :
    documentOf j ≠ .error (.invalidSchema v) := by
  unfold documentOf
  split
  · exact nofun
  · split
    · exact nofun
    · split
      · split
        · exact nofun
        · exact nofun
      · exact nofun

/-- A document that was read fails for what its fields are made of, or because its schema is
invalid. -/
theorem reports_schemaOfDocument (d : OpenApi.Document) :
    Reports (fun f => FieldFault f ∨ ∃ v, f = .problem (.invalidSchema v))
      (schemaOfDocument d) := by
  have hendpoints : Reports FieldFault (d.endpoints.mapError .problem) :=
    .mapError ((reports_endpointsOn _ _).mono fun _ h => .type (.reference h))
  refine (hendpoints.mono fun _ => Or.inl).bind fun endpoints _ => ?_
  have hassembled : Reports FieldFault (assembled d.components endpoints) :=
    (reports_rootFields ..).bind fun _ _ => .ok _
  refine (hassembled.mono fun _ => Or.inl).bind fun schema _ => ?_
  split
  · exact .error (Or.inr ⟨_, rfl⟩)
  · exact .ok _

theorem not_fieldFault_invalidSchema (v : Violation) :
    ¬ FieldFault (.problem (.invalidSchema v)) := by
  rintro ⟨⟨⟨⟩⟩⟩

/-- A schema is reported to be invalid when all fields have been made, and only then. -/
theorem invalidSchema_iff {j : Json} {v : Violation} :
    schemaOf j = .error (.problem (.invalidSchema v)) ↔
      ∃ d endpoints roots r, documentOf j = .ok d ∧ d.endpoints = .ok endpoints ∧
        rootFields d.components {} endpoints (.start d.components.schemas.keys) = .ok (roots, r) ∧
          (assemble roots r).violation? = some v := by
  constructor
  · intro h
    rcases bind_eq_error.mp h with h | ⟨d, hdocument, h⟩
    · obtain ⟨p, hp, heq⟩ := mapError_eq_error.mp h
      rw [Fault.problem.inj heq] at hp
      exact absurd hp (documentOf_ne_invalidSchema j v)
    rcases bind_eq_error.mp h with h | ⟨endpoints, hendpoints, h⟩
    · obtain ⟨p, hp, heq⟩ := mapError_eq_error.mp h
      rw [Fault.problem.inj heq] at hp
      exact nomatch (reports_endpointsOn _ _).of_error _ hp
    rcases bind_eq_error.mp h with h | ⟨schema, hassembled, h⟩
    · rcases bind_eq_error.mp h with h | ⟨_, _, h⟩
      · exact absurd ((reports_rootFields ..).of_error _ h) (not_fieldFault_invalidSchema v)
      · exact nomatch h
    obtain ⟨⟨roots, r⟩, hroots, heq⟩ := bind_eq_ok.mp hassembled
    obtain rfl := Except.ok.inj heq
    refine ⟨d, endpoints, roots, r, mapError_eq_ok.mp hdocument, mapError_eq_ok.mp hendpoints,
      hroots, ?_⟩
    split at h
    · rename_i hviolation
      rw [hviolation]
      cases h
      rfl
    · exact nomatch h
  · rintro ⟨d, endpoints, roots, r, hdocument, hendpoints, hroots, hviolation⟩
    have hassembled : assembled d.components endpoints = .ok (assemble roots r) :=
      bind_eq_ok.mpr ⟨_, hroots, rfl⟩
    refine bind_eq_error.mpr (Or.inr ⟨d, mapError_eq_ok.mpr hdocument, ?_⟩)
    refine bind_eq_error.mpr (Or.inr ⟨endpoints, mapError_eq_ok.mpr hendpoints, ?_⟩)
    refine bind_eq_error.mpr (Or.inr ⟨_, hassembled, ?_⟩)
    rw [hviolation]

end ApiGraph.Generation
