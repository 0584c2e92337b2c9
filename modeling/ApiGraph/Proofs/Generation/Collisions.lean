import ApiGraph.Proofs.Generation.Faults

/-!
# Names that fold together

Two properties of an object may have names that are different, and the same when they are put into
camel case.  Nothing sees to that: the type is given up on with `Fault.duplicateField`, and so are
the roots when two endpoints have fields of the same name.

`Distinct` says that this happens nowhere in what is worked on for some endpoints.  A fault is
followed from the member that it is about to the schema that was worked on, and from there to the
endpoint.

* `folds_of_typeOf`: a type is only given up on for members with the same name.
* `not_distinct_of_rootFields`: the same for roots.
-/

namespace ApiGraph.Generation

open ApiGraph.GraphQL hiding Schema
open ApiGraph.OpenApi (RefOr Schema SchemaData SchemaKind Components Endpoint EndpointParameter
  EndpointBody)

/-! ## Collisions -/

/-- Can the schema be followed, and is it that of a property that becomes a member?  What is only
written is not answered, and what is only read is no argument. -/
def Setting.shows (s : Setting) (schema : RefOr Schema) : Bool :=
  match s.resolve schema, s.position with
  | .ok (_, resolved), .output => !resolved.data.writeOnly
  | .ok (_, resolved), .input => !resolved.data.readOnly
  | .error _, _ => false

/-- The properties that become members. -/
def Setting.visible (s : Setting) (properties : List (String × RefOr Schema)) :
    List (String × RefOr Schema) :=
  properties.filter fun p => s.shows p.2

/-- The names of the members. -/
def Setting.memberNames (s : Setting) (properties : List (String × RefOr Schema)) : List String :=
  (s.visible properties).map fun p => fieldName p.1

/-- The schemas that are worked on for a schema: itself, and those for items and members. -/
inductive Inside (s : Setting) : RefOr Schema → RefOr Schema → Prop
  | refl (a : RefOr Schema) : Inside s a a
  | item {a b items : RefOr Schema} {component : Option String} {resolved : Schema}
      (hresolve : s.resolve a = .ok (component, resolved))
      (hkind : resolved.kind = .array (some items)) (h : Inside s items b) : Inside s a b
  | member {a b : RefOr Schema} {component : Option String} {resolved : Schema}
      {properties : List (String × RefOr Schema)} {required : List String}
      {p : String × RefOr Schema} (hresolve : s.resolve a = .ok (component, resolved))
      (hkind : resolved.kind = .object properties required) (hp : p ∈ s.visible properties)
      (h : Inside s p.2 b) : Inside s a b

/-- Two members of the object would get the same name. -/
def Folds (s : Setting) (b : RefOr Schema) : Prop :=
  ∃ component resolved properties required, s.resolve b = .ok (component, resolved) ∧
    resolved.kind = .object properties required ∧ ¬ (s.memberNames properties).Nodup

/-- There are such members somewhere inside the schema. -/
def FoldsInside (s : Setting) (a : RefOr Schema) : Prop :=
  ∃ b, Inside s a b ∧ Folds s b

/-- There are such members inside a schema of the endpoint: of its answer, a parameter or its
body. -/
def EndpointFolds (c : Components) (e : Endpoint) : Prop :=
  (∃ a ∈ e.response, FoldsInside ⟨c, .output⟩ a) ∨
    (∃ p ∈ e.parameters, ∃ a ∈ p.schema, FoldsInside ⟨c, .input⟩ a) ∨
      ∃ b ∈ e.body, FoldsInside ⟨c, .input⟩ b.schema

/-- No two fields of one type get the same name, neither in the types for the endpoints nor in the
roots. -/
structure Distinct (c : Components) (endpoints : List Endpoint) : Prop where
  types : ∀ e ∈ endpoints, ¬ EndpointFolds c e
  query : ((endpoints.filter (·.isQuery)).map (·.fieldName)).Nodup
  mutation : ((endpoints.filter (!·.isQuery)).map (·.fieldName)).Nodup

variable {s : Setting}

theorem hides_output (h : s.position = .output) (data : SchemaData) :
    s.hides data = data.writeOnly := by
  rw [Setting.hides, h]

theorem hides_input (h : s.position = .input) (data : SchemaData) :
    s.hides data = data.readOnly := by
  rw [Setting.hides, h]

/-- The properties that do not become members are those that the generator leaves out. -/
theorem shows_of_resolve {schema : RefOr Schema} {component : Option String} {resolved : Schema}
    (h : s.resolve schema = .ok (component, resolved)) :
    s.shows schema = !s.hides resolved.data := by
  rw [Setting.shows, h]
  cases hposition : s.position with
  | output => rw [hides_output hposition]
  | input => rw [hides_input hposition]

theorem exists_resolve_of_shows {schema : RefOr Schema} (h : s.shows schema = true) :
    ∃ component resolved, s.resolve schema = .ok (component, resolved) ∧
      s.hides resolved.data = false := by
  cases hresolve : s.resolve schema with
  | error f =>
    rw [Setting.shows, hresolve] at h
    exact nomatch h
  | ok found =>
    rw [shows_of_resolve hresolve, Bool.not_eq_true'] at h
    exact ⟨_, _, rfl, h⟩

theorem visible_cons (p : String × RefOr Schema) (rest : List (String × RefOr Schema)) :
    s.visible (p :: rest) = if s.shows p.2 then p :: s.visible rest else s.visible rest :=
  List.filter_cons

/-! ## Faults come from collisions -/

theorem problem_of_resolve {schema : RefOr Schema} {f : Fault}
    (h : s.resolve schema = .error f) : ∃ p, f = .problem p := by
  obtain ⟨p, -, hp⟩ := mapError_eq_error.mp h
  exact ⟨p, hp.symm⟩

theorem ne_duplicateField_of_resolve {schema : RefOr Schema} {f : Fault} (name : String)
    (h : s.resolve schema = .error f) : f ≠ .duplicateField name := by
  obtain ⟨p, rfl⟩ := problem_of_resolve h
  exact Fault.noConfusion

theorem FoldsInside.item {a items : RefOr Schema} {component : Option String} {resolved : Schema}
    (hresolve : s.resolve a = .ok (component, resolved))
    (hkind : resolved.kind = .array (some items)) (h : FoldsInside s items) : FoldsInside s a := by
  obtain ⟨b, hinside, hfolds⟩ := h
  exact ⟨b, .item hresolve hkind hinside, hfolds⟩

theorem FoldsInside.member {a : RefOr Schema} {component : Option String} {resolved : Schema}
    {properties : List (String × RefOr Schema)} {required : List String}
    {p : String × RefOr Schema} (hresolve : s.resolve a = .ok (component, resolved))
    (hkind : resolved.kind = .object properties required) (hp : p ∈ s.visible properties)
    (h : FoldsInside s p.2) : FoldsInside s a := by
  obtain ⟨b, hinside, hfolds⟩ := h
  exact ⟨b, .member hresolve hkind hp hinside, hfolds⟩

theorem folds_of_membersOf
    {make : RefOr Schema → String → Registry → Except Fault (TypeRef × Registry)} {name : String}
    (hmake : ∀ {schema hint r}, make schema hint r = .error (.duplicateField name) →
      FoldsInside s schema)
    {owner : String} {required : List String} {properties : List (String × RefOr Schema)}
    {members : List InputValue} {r : Registry}
    (h : membersOf make s owner required members properties r = .error (.duplicateField name)) :
    (∃ p ∈ s.visible properties, FoldsInside s p.2) ∨
      ¬ (members.map (·.name) ++ s.memberNames properties).Nodup := by
  induction properties generalizing members r with
  | nil => exact nomatch h
  | cons p rest ih =>
    obtain ⟨property, schema⟩ := p
    cases hresolve : s.resolve schema with
    | error f =>
      rw [membersOf_of_unresolved hresolve] at h
      exact absurd (Except.error.inj h) (ne_duplicateField_of_resolve name hresolve)
    | ok found =>
      obtain ⟨component, resolved⟩ := found
      have hshows := shows_of_resolve hresolve
      rw [Setting.memberNames, visible_cons, hshows]
      cases hhides : s.hides resolved.data with
      | true =>
        rw [membersOf_of_hides hresolve hhides] at h
        exact ih h
      | false =>
        rw [membersOf_of_shows hresolve hhides] at h
        rw [Bool.not_false, if_pos rfl]
        rcases bind_eq_error.mp h with h | ⟨⟨type, r₁⟩, -, h⟩
        · exact Or.inl ⟨_, List.mem_cons_self .., hmake h⟩
        rcases bind_eq_error.mp h with h | ⟨members', hadd, h⟩
        · obtain ⟨hmem, -⟩ := addMember_eq_error.mp h
          refine Or.inr fun hnodup => ?_
          exact List.disjoint_of_nodup_append hnodup hmem (List.mem_cons_self ..)
        · obtain ⟨-, rfl⟩ := addMember_eq_ok.mp hadd
          rcases ih h with ⟨p, hp, hfolds⟩ | hnodup
          · exact Or.inl ⟨p, List.mem_cons_of_mem _ hp, hfolds⟩
          · rw [List.map_append, List.append_assoc] at hnodup
            exact Or.inr hnodup

theorem folds_of_objectType
    {make : RefOr Schema → String → Registry → Except Fault (TypeRef × Registry)} {name : String}
    (hmake : ∀ {schema hint r}, make schema hint r = .error (.duplicateField name) →
      FoldsInside s schema)
    {schema : RefOr Schema} {component : Option String} {resolved : Schema} {base : String}
    {properties : List (String × RefOr Schema)} {required : List String} {r : Registry}
    (hresolve : s.resolve schema = .ok (component, resolved))
    (hkind : resolved.kind = .object properties required)
    (h : objectType make s component base resolved.data properties required r =
      .error (.duplicateField name)) :
    FoldsInside s schema := by
  unfold objectType at h
  cases hknown : component.bind (r.assigned? s.position) with
  | some known =>
    rw [hknown] at h
    exact nomatch h
  | none =>
    rw [hknown] at h
    rcases bind_eq_error.mp h with h | ⟨⟨members, r₂⟩, -, h⟩
    · rcases folds_of_membersOf hmake h with ⟨p, hp, hfolds⟩ | hnodup
      · exact hfolds.member hresolve hkind hp
      · exact ⟨schema, .refl schema, component, resolved, properties, required, hresolve, hkind,
          hnodup⟩
    · exact nomatch h

/-- A type is only given up on for members with the same name. -/
theorem folds_of_typeOf {bound : Nat} {schema : RefOr Schema} {hint name : String} {r : Registry}
    (h : typeOf s bound schema hint r = .error (.duplicateField name)) : FoldsInside s schema := by
  induction bound generalizing schema hint r with
  | zero => exact nomatch h
  | succ bound ih =>
    cases hresolve : s.resolve schema with
    | error f =>
      rw [typeOf_of_unresolved hresolve] at h
      exact absurd (Except.error.inj h) (ne_duplicateField_of_resolve name hresolve)
    | ok found =>
      obtain ⟨component, resolved⟩ := found
      obtain ⟨_, hkind⟩ | hkind | hkind | ⟨items, hkind⟩ | ⟨properties, required, hkind, hsome⟩ :=
        kind_cases resolved.kind
      · rw [typeOf_of_scalar hresolve hkind] at h
        exact nomatch h
      · rw [typeOf_of_shapeless hresolve hkind] at h
        exact nomatch h
      · rw [typeOf_of_array_none hresolve hkind] at h
        exact nomatch h
      · rw [typeOf_of_array hresolve hkind] at h
        rcases bind_eq_error.mp h with h | ⟨found, -, h⟩
        · exact (ih h).item hresolve hkind
        have hitems := (bind_eq_error_of_ok fun _ => ⟨_, rfl⟩).mp h
        exact absurd rfl (ne_duplicateField_of_resolve name hitems)
      · rw [typeOf_of_object hresolve hkind hsome] at h
        exact folds_of_objectType ih hresolve hkind h

/-! ## Faults of roots -/

variable {c : Components} {name : String}

theorem endpointFolds_of_worksOn {e : Endpoint} {position : Position} {a : RefOr Schema}
    (hworks : WorksOn e position a) (h : FoldsInside ⟨c, position⟩ a) : EndpointFolds c e := by
  cases hworks with
  | response ha => exact Or.inl ⟨a, ha, h⟩
  | parameter hp ha => exact Or.inr (Or.inl ⟨_, hp, a, ha, h⟩)
  | body hb => exact Or.inr (Or.inr ⟨_, hb, h⟩)

theorem worksOn_of_endpointFolds {e : Endpoint} (h : EndpointFolds c e) :
    ∃ position a, WorksOn e position a ∧ FoldsInside ⟨c, position⟩ a := by
  rcases h with ⟨a, ha, hfolds⟩ | ⟨p, hp, a, ha, hfolds⟩ | ⟨b, hb, hfolds⟩
  · exact ⟨.output, a, .response ha, hfolds⟩
  · exact ⟨.input, a, .parameter hp ha, hfolds⟩
  · exact ⟨.input, b.schema, .body hb, hfolds⟩

theorem not_distinct_of_rootFields {components : List String} {endpoints : List Endpoint}
    (h : rootFields c {} endpoints (.start components) = .error (.duplicateField name)) :
    ¬ Distinct c endpoints := by
  intro hdistinct
  rcases fault_of_rootFields (fun _ => Fault.noConfusion) h with
    ⟨e, he, position, a, hworks, hint, r, hfails⟩ | ⟨-, hnodup | hnodup⟩
  · exact hdistinct.types e he (endpointFolds_of_worksOn hworks (folds_of_typeOf hfails))
  · exact hnodup hdistinct.query
  · exact hnodup hdistinct.mutation

end ApiGraph.Generation
