import ApiGraph.Proofs.Generation.Fields
import ApiGraph.Proofs.Generation.Problems

/-!
# The arguments of a field

The types of the arguments can be made first, without a look at their names: `endpointTypes` does so
for a whole endpoint.  What is left are names, and with these only one thing can go wrong.  A
parameter whose name is taken is called after its location too, and that name may be taken as well,
by a parameter that has it as its own or that was renamed before.  The body does not step aside at
all.  `Clash c e n` says that this happens with the name `n`, for the first time.

* `endpointField_outcome`: which arguments a field gets, and when it gets none because of a clash.
-/

namespace ApiGraph.Generation

open ApiGraph.GraphQL hiding Schema
open ApiGraph.OpenApi (RefOr Schema Components Endpoint EndpointParameter EndpointBody)

variable {c : Components} {e : Endpoint} {r r' : Registry} {base : String} {fault : Fault}

/-! ## Types first -/

/-- The types of the parameters, made one after the other. -/
def parameterTypes (c : Components) (base : String) :
    List EndpointParameter → Registry → Except Fault (List TypeRef × Registry)
  | [], r => .ok ([], r)
  | p :: rest, r => do
    let (type, r) ← optionalType c .input p.schema (propertyHint base p.name) r
    let (types, r) ← parameterTypes c base rest r
    return (type :: types, r)

/-- The type of the body, if there is one. -/
def bodyType (c : Components) (base : String) :
    Option EndpointBody → Registry → Except Fault (Option TypeRef × Registry)
  | none, r => .ok (none, r)
  | some b, r => do
    let hint ← bodyBase c base b.schema
    let (type, r) ← schemaType c .input b.schema hint r
    return (some type, r)

/-- The types that the field for an endpoint needs. -/
structure EndpointTypes where
  answer : TypeRef
  parameters : List TypeRef
  body : Option TypeRef

/-- All types for an endpoint: that of the answer, those of the parameters and that of the body. -/
def endpointTypes (c : Components) (e : Endpoint) (r : Registry) :
    Except Fault (EndpointTypes × Registry) := do
  let base := typeName e.fieldName
  let (answer, r) ← optionalType c .output e.response base r
  let (parameters, r) ← parameterTypes c base e.parameters r
  let (body, r) ← bodyType c base e.body r
  return ({ answer, parameters, body }, r)

theorem length_parameterTypes {ps : List EndpointParameter} {types : List TypeRef}
    (h : parameterTypes c base ps r = .ok (types, r')) : types.length = ps.length := by
  induction ps generalizing r types with
  | nil =>
    obtain ⟨rfl, -⟩ := Prod.mk.inj (Except.ok.inj h)
    rfl
  | cons p rest ih =>
    obtain ⟨⟨type, r₁⟩, -, h⟩ := bind_eq_ok.mp h
    obtain ⟨⟨more, r₂⟩, hmore, h⟩ := bind_eq_ok.mp h
    obtain ⟨rfl, rfl⟩ := Prod.mk.inj (Except.ok.inj h)
    exact congrArg (· + 1) (ih hmore)

theorem typeFault_parameterTypes (base : String) (ps : List EndpointParameter) (r : Registry) :
    Reports TypeFault (parameterTypes c base ps r) := by
  induction ps generalizing r with
  | nil => exact .ok _
  | cons p rest ih =>
    exact (typeFault_optionalType ..).bind fun _ _ => (ih _).bind fun _ _ => .ok _

theorem typeFault_bodyType (base : String) (body : Option EndpointBody) (r : Registry) :
    Reports TypeFault (bodyType c base body r) := by
  cases body with
  | none => exact .ok _
  | some b =>
    exact (typeFault_bodyBase base b.schema).bind fun _ _ =>
      (reports_typeOf ..).bind fun _ _ => .ok _

theorem typeFault_endpointTypes (e : Endpoint) (r : Registry) :
    Reports TypeFault (endpointTypes c e r) :=
  (typeFault_optionalType ..).bind fun _ _ => (typeFault_parameterTypes ..).bind fun _ _ =>
    (typeFault_bodyType ..).bind fun _ _ => .ok _

/-! ## Names -/

/-- The name for a parameter whose own is taken. -/
def combinedName (p : EndpointParameter) : String :=
  fieldName (p.name ++ " " ++ p.location.name)

theorem parameterName_of_mem {known : List String} {p : EndpointParameter}
    (h : fieldName p.name ∈ known) : parameterName known p = combinedName p :=
  if_pos h

theorem parameterName_mem_iff {known : List String} {p : EndpointParameter} :
    parameterName known p ∈ known ↔ fieldName p.name ∈ known ∧ combinedName p ∈ known := by
  by_cases h : fieldName p.name ∈ known
  · rw [parameterName_of_mem h]
    exact (and_iff_right h).symm
  · rw [parameterName, if_neg h]
    exact ⟨fun hmem => absurd hmem h, fun hmem => absurd hmem.1 h⟩

theorem prefix_parameterNames (known : List String) (ps : List EndpointParameter) :
    known <+: parameterNames known ps := by
  induction ps generalizing known with
  | nil => exact List.prefix_rfl
  | cons p rest ih => exact (List.prefix_append ..).trans (ih _)

theorem nodup_of_parameterNames {known : List String} (ps : List EndpointParameter)
    (h : (parameterNames known ps).Nodup) : known.Nodup :=
  h.sublist (prefix_parameterNames known ps).sublist

/-- The first name that a parameter would get although it is taken, beside known ones. -/
def parameterClash? (known : List String) : List EndpointParameter → Option String
  | [] => none
  | p :: rest =>
    if parameterName known p ∈ known then some (parameterName known p)
    else parameterClash? (known ++ [parameterName known p]) rest

theorem parameterClash?_eq_none_iff {known : List String} (hknown : known.Nodup)
    {ps : List EndpointParameter} :
    parameterClash? known ps = none ↔ (parameterNames known ps).Nodup := by
  induction ps generalizing known with
  | nil => exact iff_of_true rfl hknown
  | cons p rest ih =>
    rw [parameterClash?, parameterNames]
    by_cases htaken : parameterName known p ∈ known
    · rw [if_pos htaken]
      refine iff_of_false (Option.some_ne_none _) fun hnodup => ?_
      exact (nodup_append_singleton.mp (nodup_of_parameterNames rest hnodup)).2 htaken
    · rw [if_neg htaken]
      exact ih (nodup_append_singleton.mpr ⟨hknown, htaken⟩)

theorem parameterClash?_eq_some_iff {known : List String} {ps : List EndpointParameter}
    {n : String} (hknown : known.Nodup) :
    parameterClash? known ps = some n ↔
      ∃ before p after, ps = before ++ p :: after ∧ (parameterNames known before).Nodup ∧
        fieldName p.name ∈ parameterNames known before ∧
          combinedName p ∈ parameterNames known before ∧ n = combinedName p := by
  induction ps generalizing known with
  | nil =>
    refine iff_of_false nofun ?_
    rintro ⟨before, p, after, h, -⟩
    exact List.append_ne_nil_of_right_ne_nil before (List.cons_ne_nil p after) h.symm
  | cons p rest ih =>
    rw [parameterClash?]
    constructor
    · intro h
      split at h
      · -- The first parameter is the one, and nothing stands before it.
        rename_i htaken
        obtain ⟨hown, hcombined⟩ := parameterName_mem_iff.mp htaken
        rw [parameterName_of_mem hown] at h
        exact ⟨[], p, rest, rfl, hknown, hown, hcombined, (Option.some.inj h).symm⟩
      · rename_i hnew
        obtain ⟨before, q, after, rfl, hclash⟩ :=
          (ih (nodup_append_singleton.mpr ⟨hknown, hnew⟩)).mp h
        exact ⟨p :: before, q, after, rfl, hclash⟩
    · rintro ⟨before, q, after, hsplit, hbefore, hown, hcombined, rfl⟩
      cases before with
      | nil =>
        obtain ⟨rfl, -⟩ := List.cons.inj hsplit
        have htaken : parameterName known p ∈ known := parameterName_mem_iff.mpr ⟨hown, hcombined⟩
        rw [if_pos htaken]
        exact congrArg some (parameterName_of_mem hown)
      | cons _ before =>
        obtain ⟨rfl, hrest⟩ := List.cons.inj hsplit
        have hnodup : (known ++ [parameterName known p]).Nodup :=
          nodup_of_parameterNames before hbefore
        rw [if_neg (nodup_append_singleton.mp hnodup).2]
        exact (ih hnodup).mpr ⟨before, q, after, hrest, hbefore, hown, hcombined, rfl⟩

/-- The name of the body, if it is known already. -/
def bodyClash? (c : Components) (base : String) (known : List String)
    (body : Option EndpointBody) : Option String :=
  (body.map (bodyName c base)).filter fun n => n ∈ known

theorem bodyClash?_eq_some_iff {known : List String} {body : Option EndpointBody} {n : String} :
    bodyClash? c base known body = some n ↔
      ∃ b, body = some b ∧ bodyName c base b ∈ known ∧ n = bodyName c base b := by
  rw [bodyClash?, Option.filter_eq_some_iff, Option.map_eq_some_iff, decide_eq_true_eq]
  constructor
  · rintro ⟨⟨b, hb, rfl⟩, hmem⟩
    exact ⟨b, hb, hmem, rfl⟩
  · rintro ⟨b, hb, hmem, rfl⟩
    exact ⟨⟨b, hb, rfl⟩, hmem⟩

/-- The name `n` is taken when an argument of the endpoint should get it, while all arguments before
have names of their own. -/
inductive Clash (c : Components) (e : Endpoint) : String → Prop
  /-- The own name of the parameter is taken, and the name with its location too. -/
  | parameter {before after : List EndpointParameter} {p : EndpointParameter}
      (hsplit : e.parameters = before ++ p :: after)
      (hbefore : (parameterNames [] before).Nodup)
      (hown : fieldName p.name ∈ parameterNames [] before)
      (hcombined : combinedName p ∈ parameterNames [] before) :
      Clash c e (combinedName p)
  /-- The name of the body is taken. -/
  | body {b : EndpointBody} (hbody : e.body = some b)
      (hbefore : (parameterNames [] e.parameters).Nodup)
      (htaken : bodyName c (typeName e.fieldName) b ∈ parameterNames [] e.parameters) :
      Clash c e (bodyName c (typeName e.fieldName) b)

/-- The first name that an argument of the endpoint would get although it is taken. -/
def endpointClash? (c : Components) (e : Endpoint) : Option String :=
  match parameterClash? [] e.parameters with
  | some n => some n
  | none => bodyClash? c (typeName e.fieldName) (parameterNames [] e.parameters) e.body

theorem endpointClash?_eq_some_iff {n : String} : endpointClash? c e = some n ↔ Clash c e n := by
  have hsome {n : String} := @parameterClash?_eq_some_iff [] e.parameters n List.nodup_nil
  have hnone := @parameterClash?_eq_none_iff [] List.nodup_nil e.parameters
  rw [endpointClash?]
  constructor
  · intro h
    cases hclash : parameterClash? [] e.parameters with
    | some m =>
      rw [hclash] at h
      obtain rfl := Option.some.inj h
      obtain ⟨before, p, after, hsplit, hbefore, hown, hcombined, rfl⟩ := hsome.mp hclash
      exact .parameter hsplit hbefore hown hcombined
    | none =>
      rw [hclash] at h
      obtain ⟨b, hbody, htaken, rfl⟩ := bodyClash?_eq_some_iff.mp h
      exact .body hbody (hnone.mp hclash) htaken
  · intro h
    cases h with
    | parameter hsplit hbefore hown hcombined =>
      rw [hsome.mpr ⟨_, _, _, hsplit, hbefore, hown, hcombined, rfl⟩]
    | body hbody hbefore htaken =>
      rw [hnone.mpr hbefore]
      exact bodyClash?_eq_some_iff.mpr ⟨_, hbody, htaken, rfl⟩

/-! ## Arguments from types -/

/-- The arguments for parameters with types, behind those that are there. -/
def argumentsOf (arguments : List InputValue) :
    List (EndpointParameter × TypeRef) → List InputValue
  | [] => arguments
  | (p, type) :: rest => argumentsOf (arguments ++ [parameterArgument arguments p type]) rest

theorem prefix_argumentsOf (arguments : List InputValue) (l : List (EndpointParameter × TypeRef)) :
    arguments <+: argumentsOf arguments l := by
  induction l generalizing arguments with
  | nil => exact List.prefix_rfl
  | cons head rest ih => exact (List.prefix_append ..).trans (ih _)

theorem length_argumentsOf (arguments : List InputValue)
    (l : List (EndpointParameter × TypeRef)) :
    (argumentsOf arguments l).length = arguments.length + l.length := by
  induction l generalizing arguments with
  | nil => rfl
  | cons head rest ih =>
    rw [argumentsOf, ih, List.length_append, List.length_singleton, List.length_cons]
    omega

theorem getElem?_argumentsOf (arguments : List InputValue)
    {l : List (EndpointParameter × TypeRef)} {i : Nat} {p : EndpointParameter} {type : TypeRef}
    (h : l[i]? = some (p, type)) :
    (argumentsOf arguments l)[arguments.length + i]? =
      some (parameterArgument ((argumentsOf arguments l).take (arguments.length + i)) p type) := by
  induction l generalizing arguments i with
  | nil => exact nomatch h
  | cons head rest ih =>
    cases i with
    | zero =>
      obtain rfl := Option.some.inj h
      obtain ⟨later, hlater⟩ :=
        prefix_argumentsOf (arguments ++ [parameterArgument arguments p type]) rest
      rw [List.append_assoc] at hlater
      rw [argumentsOf, ← hlater, Nat.add_zero, List.take_left,
        List.getElem?_append_right (Nat.le_refl _), Nat.sub_self]
      rfl
    | succ i =>
      have hrest := ih (arguments ++ [parameterArgument arguments head.1 head.2]) h
      rw [List.length_append, List.length_singleton, Nat.add_assoc, Nat.add_comm 1 i] at hrest
      exact hrest

theorem names_argumentsOf (arguments : List InputValue) {ps : List EndpointParameter}
    {types : List TypeRef} (h : types.length = ps.length) :
    (argumentsOf arguments (ps.zip types)).map (·.name) =
      parameterNames (arguments.map (·.name)) ps := by
  induction ps generalizing arguments types with
  | nil => rfl
  | cons p rest ih =>
    cases types with
    | nil => exact nomatch h
    | cons type types =>
      rw [List.zip_cons_cons, argumentsOf, ih _ (Nat.succ.inj h), parameterNames, List.map_append]
      rfl

/-- The argument for a body with a type. -/
def argumentOfBody (c : Components) (base : String) (b : EndpointBody) (type : TypeRef) :
    InputValue :=
  { name := bodyName c base b
    type := type.excludeNullIf b.required }

/-- The argument for the body, if there is one. -/
def bodyArguments (c : Components) (base : String) (body : Option EndpointBody)
    (type : Option TypeRef) : List InputValue :=
  (body.bind fun b => type.map (argumentOfBody c base b)).toList

theorem names_bodyArguments (c : Components) (base : String) {body : Option EndpointBody}
    {type : Option TypeRef} (h : type.isSome = body.isSome) :
    (bodyArguments c base body type).map (·.name) = (body.map (bodyName c base)).toList := by
  cases body with
  | none => rfl
  | some b =>
    obtain ⟨type, rfl⟩ := Option.isSome_iff_exists.mp h
    rfl

/-! ## Runs -/

theorem addArgument_eq (field : String) (arguments : List InputValue) (a : InputValue) :
    addArgument field arguments a =
      if a.name ∈ arguments.map (·.name) then .error (.problem (.duplicateArgument field a.name))
      else .ok (arguments ++ [a]) := by
  rw [addArgument]
  exact if_congr any_name_iff rfl rfl

/-- With the types at hand, a clash of names is all that can go wrong with parameters. -/
theorem parameterArguments_of_types (field : String) (arguments : List InputValue)
    {ps : List EndpointParameter} {types : List TypeRef}
    (h : parameterTypes c base ps r = .ok (types, r')) :
    parameterArguments c field base arguments ps r =
      match parameterClash? (arguments.map (·.name)) ps with
      | some n => .error (.problem (.duplicateArgument field n))
      | none => .ok (argumentsOf arguments (ps.zip types), r') := by
  induction ps generalizing arguments r types with
  | nil =>
    obtain ⟨rfl, rfl⟩ := Prod.mk.inj (Except.ok.inj h)
    rfl
  | cons p rest ih =>
    obtain ⟨⟨type, r₁⟩, htype, h⟩ := bind_eq_ok.mp h
    obtain ⟨⟨types, r₂⟩, htypes, h⟩ := bind_eq_ok.mp h
    obtain ⟨rfl, rfl⟩ := Prod.mk.inj (Except.ok.inj h)
    rw [parameterArguments, htype, parameterClash?]
    simp only [bind, Except.bind, addArgument_eq, argumentName_eq]
    by_cases htaken : parameterName (arguments.map (·.name)) p ∈ arguments.map (·.name)
    · rw [if_pos htaken, if_pos htaken]
    · have hrest := ih (arguments ++ [parameterArgument arguments p type]) htypes
      rw [List.map_append] at hrest
      rw [if_neg htaken, if_neg htaken]
      exact hrest

/-- If some type of the parameters cannot be made, that is reported, unless there is a clash of
names before. -/
theorem parameterArguments_of_fault (field : String) (arguments : List InputValue)
    {ps : List EndpointParameter} (h : parameterTypes c base ps r = .error fault) :
    ∃ fault', parameterArguments c field base arguments ps r = .error fault' ∧
      (fault' = fault ∨ ∃ n, parameterClash? (arguments.map (·.name)) ps = some n ∧
        fault' = .problem (.duplicateArgument field n)) := by
  induction ps generalizing arguments r with
  | nil => exact nomatch h
  | cons p rest ih =>
    rcases bind_eq_error.mp h with htype | ⟨⟨type, r₁⟩, htype, h⟩
    · exact ⟨fault, bind_eq_error.mpr (Or.inl htype), Or.inl rfl⟩
    have hrest := (bind_eq_error_of_ok fun _ => ⟨_, rfl⟩).mp h
    rw [parameterArguments, htype, parameterClash?]
    simp only [bind, Except.bind, addArgument_eq, argumentName_eq]
    by_cases htaken : parameterName (arguments.map (·.name)) p ∈ arguments.map (·.name)
    · rw [if_pos htaken, if_pos htaken]
      exact ⟨_, rfl, Or.inr ⟨_, rfl, rfl⟩⟩
    · have hfault := ih (arguments ++ [parameterArgument arguments p type]) hrest
      rw [List.map_append] at hfault
      rw [if_neg htaken, if_neg htaken]
      exact hfault

theorem bodyArgument_of_type (field : String) (arguments : List InputValue)
    {body : Option EndpointBody} {type : Option TypeRef}
    (h : bodyType c base body r = .ok (type, r')) :
    bodyArgument c field base arguments body r =
      match bodyClash? c base (arguments.map (·.name)) body with
      | some n => .error (.problem (.duplicateArgument field n))
      | none => .ok (arguments ++ bodyArguments c base body type, r') := by
  cases body with
  | none =>
    obtain ⟨rfl, rfl⟩ := Prod.mk.inj (Except.ok.inj h)
    rw [bodyArguments, Option.bind_none, Option.toList_none, List.append_nil]
    rfl
  | some b =>
    obtain ⟨hint, hhint, h⟩ := bind_eq_ok.mp h
    obtain ⟨⟨type, r₁⟩, htype, h⟩ := bind_eq_ok.mp h
    obtain ⟨rfl, rfl⟩ := Prod.mk.inj (Except.ok.inj h)
    have hname : fieldName (b.component.getD hint ++ " input") = bodyName c base b := by
      rw [bodyName, hhint]
    rw [bodyArgument, hhint]
    simp only [bind, Except.bind, htype, addArgument_eq, hname]
    by_cases htaken : bodyName c base b ∈ arguments.map (·.name)
    · rw [if_pos htaken, bodyClash?_eq_some_iff.mpr ⟨b, rfl, htaken, rfl⟩]
    · have hclash : bodyClash? c base (arguments.map (·.name)) (some b) = none := by
        refine Option.eq_none_iff_forall_ne_some.mpr fun n hn => ?_
        obtain ⟨b', hb, hmem, -⟩ := bodyClash?_eq_some_iff.mp hn
        rw [← Option.some.inj hb] at hmem
        exact htaken hmem
      rw [if_neg htaken, hclash]
      rfl

theorem bodyArgument_of_fault (field : String) (arguments : List InputValue)
    {body : Option EndpointBody} (h : bodyType c base body r = .error fault) :
    bodyArgument c field base arguments body r = .error fault := by
  cases body with
  | none => exact nomatch h
  | some b =>
    rcases bind_eq_error.mp h with hhint | ⟨hint, hhint, h⟩
    · exact bind_eq_error.mpr (Or.inl hhint)
    have htype := (bind_eq_error_of_ok fun _ => ⟨_, rfl⟩).mp h
    exact bind_eq_error.mpr (Or.inr ⟨hint, hhint, bind_eq_error.mpr (Or.inl htype)⟩)

/-- The field for an endpoint with types. -/
def fieldOf (c : Components) (e : Endpoint) (types : EndpointTypes) : Field :=
  { name := e.fieldName
    type := types.answer
    arguments := argumentsOf [] (e.parameters.zip types.parameters) ++
      bodyArguments c (typeName e.fieldName) e.body types.body
    description := e.description }

/-- With the types at hand, a clash of names is all that can go wrong with a field. -/
theorem endpointField_of_types {types : EndpointTypes}
    (h : endpointTypes c e r = .ok (types, r')) :
    endpointField c e r =
      match endpointClash? c e with
      | some n => .error (.problem (.duplicateArgument e.fieldName n))
      | none => .ok (fieldOf c e types, r') := by
  obtain ⟨⟨answer, r₁⟩, hanswer, h⟩ := bind_eq_ok.mp h
  obtain ⟨⟨parameters, r₂⟩, hparameters, h⟩ := bind_eq_ok.mp h
  obtain ⟨⟨body, r₃⟩, hbody, h⟩ := bind_eq_ok.mp h
  obtain ⟨rfl, rfl⟩ := Prod.mk.inj (Except.ok.inj h)
  have hnames := names_argumentsOf [] (length_parameterTypes hparameters)
  rw [endpointField, hanswer, endpointClash?]
  simp only [bind, Except.bind, parameterArguments_of_types _ _ hparameters, List.map_nil]
  cases parameterClash? [] e.parameters with
  | some n => rfl
  | none =>
    simp only [bodyArgument_of_type _ _ hbody, hnames, List.map_nil]
    cases bodyClash? c (typeName e.fieldName) (parameterNames [] e.parameters) e.body with
    | some n => rfl
    | none => rfl

theorem endpointField_of_fault (h : endpointTypes c e r = .error fault) :
    ∃ fault', endpointField c e r = .error fault' ∧
      (fault' = fault ∨ ∃ n, endpointClash? c e = some n ∧
        fault' = .problem (.duplicateArgument e.fieldName n)) := by
  rcases bind_eq_error.mp h with hanswer | ⟨⟨answer, r₁⟩, hanswer, h⟩
  · exact ⟨fault, bind_eq_error.mpr (Or.inl hanswer), Or.inl rfl⟩
  rw [endpointField, hanswer, endpointClash?]
  simp only [bind, Except.bind]
  rcases bind_eq_error.mp h with hparameters | ⟨⟨parameters, r₂⟩, hparameters, h⟩
  · obtain ⟨fault', hfault, hcause⟩ := parameterArguments_of_fault e.fieldName [] hparameters
    rw [hfault]
    refine ⟨fault', rfl, hcause.imp_right ?_⟩
    rintro ⟨n, hn, rfl⟩
    rw [List.map_nil] at hn
    rw [hn]
    exact ⟨n, rfl, rfl⟩
  · rw [parameterArguments_of_types _ _ hparameters, List.map_nil]
    cases parameterClash? [] e.parameters with
    | some n => exact ⟨_, rfl, Or.inr ⟨n, rfl, rfl⟩⟩
    | none =>
      have hbody := (bind_eq_error_of_ok fun _ => ⟨_, rfl⟩).mp h
      simp only [bodyArgument_of_fault _ _ hbody]
      exact ⟨fault, rfl, Or.inl rfl⟩

/-! ## Outcomes -/

/-- These are the arguments for the parameters and the body of the endpoint, with the types: one for
each parameter, in order, and behind them one for the body, if there is one. -/
structure Arranged (c : Components) (e : Endpoint) (types : EndpointTypes)
    (arguments : List InputValue) : Prop where
  length : arguments.length = e.parameters.length + e.body.toList.length
  /-- The name of a parameter depends on the names of the arguments before. -/
  parameter : ∀ i p, e.parameters[i]? = some p → ∃ type, types.parameters[i]? = some type ∧
    arguments[i]? = some
      ({ name :=
          if fieldName p.name ∈ (arguments.take i).map (·.name) then
            fieldName (p.name ++ " " ++ p.location.name)
          else fieldName p.name
         type := type.excludeNullIf p.required
         description := p.description } : InputValue)
  body : ∀ b, e.body = some b → ∃ type, types.body = some type ∧
    arguments.getLast? = some
      ({ name := bodyName c (typeName e.fieldName) b
         type := type.excludeNullIf b.required } : InputValue)
  nodup : (arguments.map (·.name)).Nodup

/-- The types are those of all parameters, and of the body if there is one. -/
theorem endpointTypes_eq_ok {types : EndpointTypes} (h : endpointTypes c e r = .ok (types, r')) :
    types.parameters.length = e.parameters.length ∧ types.body.isSome = e.body.isSome := by
  obtain ⟨⟨answer, r₁⟩, -, h⟩ := bind_eq_ok.mp h
  obtain ⟨⟨parameters, r₂⟩, hparameters, h⟩ := bind_eq_ok.mp h
  obtain ⟨⟨body, r₃⟩, hbody, h⟩ := bind_eq_ok.mp h
  obtain ⟨rfl, rfl⟩ := Prod.mk.inj (Except.ok.inj h)
  refine ⟨length_parameterTypes hparameters, ?_⟩
  cases hb : e.body with
  | none =>
    rw [hb] at hbody
    obtain ⟨rfl, -⟩ := Prod.mk.inj (Except.ok.inj hbody)
    rfl
  | some b =>
    rw [hb] at hbody
    obtain ⟨hint, -, hbody⟩ := bind_eq_ok.mp hbody
    obtain ⟨⟨type, r₄⟩, -, hbody⟩ := bind_eq_ok.mp hbody
    obtain ⟨rfl, -⟩ := Prod.mk.inj (Except.ok.inj hbody)
    rfl

theorem arranged_fieldOf {types : EndpointTypes} (htypes : endpointTypes c e r = .ok (types, r'))
    (hfield : endpointField c e r = .ok (fieldOf c e types, r')) :
    Arranged c e types (fieldOf c e types).arguments := by
  obtain ⟨hlength, hsome⟩ := endpointTypes_eq_ok htypes
  have hzip : (e.parameters.zip types.parameters).length = e.parameters.length := by
    rw [List.length_zip, hlength, Nat.min_self]
  have hparameters :
      (argumentsOf [] (e.parameters.zip types.parameters)).length = e.parameters.length := by
    rw [length_argumentsOf, hzip, List.length_nil, Nat.zero_add]
  refine ⟨?_, fun i p hp => ?_, fun b hb => ?_, ?_⟩
  · rw [fieldOf, List.length_append, hparameters]
    -- The argument for the body is counted by its name.
    have hbody := congrArg List.length (names_bodyArguments c (typeName e.fieldName) hsome)
    rw [List.length_map] at hbody
    rw [hbody]
    cases e.body <;> rfl
  · obtain ⟨hi, -⟩ := List.getElem?_eq_some_iff.mp hp
    obtain ⟨type, htype⟩ : ∃ type, types.parameters[i]? = some type :=
      ⟨_, List.getElem?_eq_getElem (hlength ▸ hi)⟩
    have hpair : (e.parameters.zip types.parameters)[i]? = some (p, type) :=
      List.getElem?_zip_eq_some.mpr ⟨hp, htype⟩
    have harg := getElem?_argumentsOf [] hpair
    rw [List.length_nil, Nat.zero_add] at harg
    refine ⟨type, htype, ?_⟩
    rw [fieldOf, List.getElem?_append_left (hparameters ▸ hi),
      List.take_append_of_le_length (hparameters ▸ Nat.le_of_lt hi)]
    exact harg
  · obtain ⟨type, htype⟩ : ∃ type, types.body = some type := by
      rw [hb] at hsome
      exact Option.isSome_iff_exists.mp hsome
    refine ⟨type, htype, ?_⟩
    rw [fieldOf, hb, htype]
    exact List.getLast?_concat
  · exact (makes_of_endpointField hfield).nodup_arguments

/-- An endpoint that becomes a field has one argument for each parameter, in order, and one more for
its body; a parameter goes by its own name if that is new, and else by its name and its location,
and no two names are the same.  With all types at hand there is no field exactly if the second name
of a parameter is taken as well, or the name of the body, and then this is what is reported.
Otherwise the type that cannot be made is reported, or a clash of names before. -/
theorem endpointField_outcome (c : Components) (e : Endpoint) (r : Registry) :
    (∀ f r', endpointField c e r = .ok (f, r') →
      ∃ types, endpointTypes c e r = .ok (types, r') ∧
        f = { name := e.fieldName, type := types.answer, arguments := f.arguments,
              description := e.description } ∧
        Arranged c e types f.arguments) ∧
    (∀ types r', endpointTypes c e r = .ok (types, r') → ∀ fault,
      (endpointField c e r = .error fault ↔
        ∃ n, Clash c e n ∧ fault = .problem (.duplicateArgument e.fieldName n))) ∧
    ∀ fault, endpointTypes c e r = .error fault → TypeFault fault ∧
      ∃ fault', endpointField c e r = .error fault' ∧
        (fault' = fault ∨
          ∃ n, Clash c e n ∧ fault' = .problem (.duplicateArgument e.fieldName n)) := by
  refine ⟨fun f r' h => ?_, fun types r' htypes fault => ?_, fun fault htypes => ?_⟩
  · cases htypes : endpointTypes c e r with
    | error fault =>
      obtain ⟨fault', hfault, -⟩ := endpointField_of_fault htypes
      exact nomatch h.symm.trans hfault
    | ok made =>
      have hmade : f = fieldOf c e made.1 ∧ r' = made.2 := by
        rw [endpointField_of_types htypes] at h
        cases hclash : endpointClash? c e with
        | some n =>
          rw [hclash] at h
          exact nomatch h
        | none =>
          rw [hclash] at h
          exact Prod.mk.inj (Except.ok.inj h.symm)
      obtain ⟨rfl, rfl⟩ := hmade
      exact ⟨made.1, rfl, rfl, arranged_fieldOf htypes h⟩
  · simp only [← endpointClash?_eq_some_iff]
    rw [endpointField_of_types htypes]
    cases endpointClash? c e with
    | some n =>
      constructor
      · intro h
        exact ⟨n, rfl, (Except.error.inj h).symm⟩
      · rintro ⟨m, hm, rfl⟩
        rw [Option.some.inj hm]
    | none =>
      refine iff_of_false nofun ?_
      rintro ⟨n, hn, -⟩
      exact nomatch hn
  · simp only [← endpointClash?_eq_some_iff]
    exact ⟨(typeFault_endpointTypes e r).of_error fault htypes, endpointField_of_fault htypes⟩

/-- The name that a parameter gets for its location may be that of another one, which then steps
aside as well. -/
example :
    argumentNames {}
        { path := "/pets", method := .get
          parameters := [⟨"X-Id", .header, none, true, none⟩, ⟨"x_id", .query, none, false, none⟩,
            ⟨"xIdQuery", .path, none, true, none⟩] } =
      ["xId", "xIdQuery", "xIdQueryPath"] := by decide

end ApiGraph.Generation
