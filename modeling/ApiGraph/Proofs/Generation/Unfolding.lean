import ApiGraph.Proofs.Generation.Nesting

/-!
# Documents whose types come to an end

An object component has its type from the beginning on, so however components refer to one another
through objects, the work on them comes to an end.  An array component has no type of its own: it is
unfolded wherever it is referred to, and so is an object that is no component.  `Unfolds` relates
such a schema to those that are unfolded for it.  A component that unfolds to a reference to itself
contains itself (`ContainsItself`), and this is the only reason why types do not come to an end.

* `endpointField_ne_unbounded`: without such components every endpoint gets its field or a fault of
  its own, whatever was made before.
* `unbounded_iff`: the documents for which this goes wrong.
* `unbounded_nodes`: one of them, in which no array contains itself through arrays alone.
-/

namespace ApiGraph.OpenApi.Schema

theorem sizeOfRef_le_sizeOfProperties {properties : List (String × RefOr Schema)}
    {p : String × RefOr Schema} (h : p ∈ properties) :
    sizeOfRef p.2 ≤ sizeOfProperties properties := by
  induction properties with
  | nil => exact absurd h List.not_mem_nil
  | cons q rest ih =>
    rw [sizeOfProperties]
    rcases List.mem_cons.mp h with rfl | h
    · exact Nat.le_add_right ..
    · have hrest := ih h
      omega

end ApiGraph.OpenApi.Schema

namespace ApiGraph.Generation

open ApiGraph.GraphQL hiding Schema
open ApiGraph.OpenApi (RefOr Schema SchemaKind Components Endpoint)
open Relation (TransGen ReflTransGen)

variable {s : Setting} {a b : RefOr Schema}

/-! ## Unfolding -/

/-- The schemas that are worked on for an array, and for an object that is no component, each time
that it is met. -/
inductive Unfolds (s : Setting) : RefOr Schema → RefOr Schema → Prop
  | item {a items : RefOr Schema} {component : Option String} {resolved : Schema}
      (hresolve : s.resolve a = .ok (component, resolved))
      (hkind : resolved.kind = .array (some items)) : Unfolds s a items
  | member {a : RefOr Schema} {resolved : Schema} {properties : List (String × RefOr Schema)}
      {required : List String} {p : String × RefOr Schema}
      (hresolve : s.resolve a = .ok (none, resolved))
      (hkind : resolved.kind = .object properties required) (hp : p ∈ s.visible properties) :
      Unfolds s a p.2

/-- The component unfolds to a reference to itself. -/
def ContainsItself (s : Setting) (name : String) : Prop :=
  ∃ a b, s.RefersTo a name ∧ s.RefersTo b name ∧ TransGen (Unfolds s) a b

/-- A component that contains itself is met when the schema is worked on. -/
def Endless (s : Setting) (a : RefOr Schema) : Prop :=
  ∃ b name, Inside s a b ∧ s.RefersTo b name ∧ ContainsItself s name

/-- What a schema that can be followed unfolds to. -/
theorem Unfolds.cases_of_resolve {component : Option String} {resolved : Schema}
    (h : Unfolds s a b) (hresolve : s.resolve a = .ok (component, resolved)) :
    resolved.kind = .array (some b) ∨
      component = none ∧ ∃ properties required, resolved.kind = .object properties required ∧
        ∃ p ∈ s.visible properties, b = p.2 := by
  cases h with
  | item hresolve' hkind =>
    obtain ⟨-, rfl⟩ := Prod.mk.inj (Except.ok.inj (hresolve.symm.trans hresolve'))
    exact Or.inl hkind
  | member hresolve' hkind hp =>
    obtain ⟨rfl, rfl⟩ := Prod.mk.inj (Except.ok.inj (hresolve.symm.trans hresolve'))
    exact Or.inr ⟨rfl, _, _, hkind, _, hp, rfl⟩

/-- How a schema unfolds depends only on what it comes to when it is followed. -/
theorem Unfolds.congr {a' : RefOr Schema} (h : Unfolds s a b) (heq : s.resolve a = s.resolve a') :
    Unfolds s a' b := by
  cases h with
  | item hresolve hkind => exact .item (heq ▸ hresolve) hkind
  | member hresolve hkind hp => exact .member (heq ▸ hresolve) hkind hp

theorem Leads.unfolds {known : String → Prop} (h : Leads s known a b) : Unfolds s a b := by
  cases h with
  | item hresolve hkind => exact .item hresolve hkind
  | member hresolve hkind _ hshows =>
    refine .member hresolve hkind (List.mem_filter.mpr ⟨?_, hshows⟩)
    exact List.mem_append_right _ (List.mem_cons_self ..)

theorem Inside.trans {c : RefOr Schema} (h : Inside s a b) (h' : Inside s b c) : Inside s a c := by
  induction h with
  | refl a => exact h'
  | item hresolve hkind _ ih => exact .item hresolve hkind (ih h')
  | member hresolve hkind hp _ ih => exact .member hresolve hkind hp (ih h')

theorem Unfolds.inside (h : Unfolds s a b) : Inside s a b := by
  cases h with
  | item hresolve hkind => exact .item hresolve hkind (.refl _)
  | member hresolve hkind hp => exact .member hresolve hkind hp (.refl _)

theorem inside_of_reflTransGen (h : ReflTransGen (Unfolds s) a b) : Inside s a b := by
  induction h with
  | refl => exact .refl a
  | tail _ hstep ih => exact ih.trans hstep.inside

/-! ## Components on cycles -/

/-- A schema that stands where it is used is larger than those that it unfolds to. -/
theorem sizeOfRef_lt_of_unfolds {value : Schema} (h : Unfolds s (.item value) b) :
    Schema.sizeOfRef b < Schema.sizeOfRef (.item value) := by
  have hresolve : s.resolve (.item value) = .ok (none, value) := rfl
  obtain ⟨data, kind⟩ := value
  rw [Schema.sizeOfRef, Schema.size]
  rcases h.cases_of_resolve hresolve with hkind | ⟨-, properties, required, hkind, p, hp, rfl⟩
  · obtain rfl : kind = .array (some b) := hkind
    rw [Schema.sizeOfKind]
    omega
  · obtain rfl : kind = .object properties required := hkind
    have hle := Schema.sizeOfRef_le_sizeOfProperties (List.mem_of_mem_filter hp)
    rw [Schema.sizeOfKind]
    omega

/-- Where schemas that stand where they are used lead to smaller ones, there is a reference on the
way to a larger one. -/
theorem exists_reference_or_lt {R : RefOr Schema → RefOr Schema → Prop}
    (hshrinks : ∀ value b, R (.item value) b → Schema.sizeOfRef b < Schema.sizeOfRef (.item value))
    (h : TransGen R a b) :
    (∃ target, ReflTransGen R a (.reference target) ∧ TransGen R (.reference target) b) ∨
      Schema.sizeOfRef b < Schema.sizeOfRef a := by
  induction h using TransGen.head_induction_on with
  | @single a hstep =>
    cases a with
    | reference target => exact Or.inl ⟨target, .refl, .single hstep⟩
    | item value => exact Or.inr (hshrinks value b hstep)
  | @head a c hstep hrest ih =>
    cases a with
    | reference target => exact Or.inl ⟨target, .refl, .head hstep hrest⟩
    | item value =>
      rcases ih with ⟨target, hto, hfrom⟩ | hlt
      · exact Or.inl ⟨target, .head hstep hto, hfrom⟩
      · exact Or.inr (Nat.lt_trans hlt (hshrinks value c hstep))

/-- So there is a reference on every cycle. -/
theorem exists_reference_of_cycle {R : RefOr Schema → RefOr Schema → Prop}
    (hshrinks : ∀ value b, R (.item value) b → Schema.sizeOfRef b < Schema.sizeOfRef (.item value))
    (h : TransGen R a a) :
    ∃ target, ReflTransGen R a (.reference target) ∧
      TransGen R (.reference target) (.reference target) := by
  rcases exists_reference_or_lt hshrinks h with ⟨target, hto, hfrom⟩ | hlt
  · exact ⟨target, hto, hfrom.trans_left hto⟩
  · exact absurd hlt (Nat.lt_irrefl _)

/-- A reference that can be followed is one to a component. -/
theorem exists_refersTo {target : String} {found : Option String × Schema}
    (h : s.resolve (.reference target) = .ok found) :
    ∃ name, s.RefersTo (.reference target) name := by
  obtain ⟨⟨name, value⟩, -, rfl⟩ := map_eq_ok.mp (mapError_eq_ok.mp h)
  exact ⟨name, value, h⟩

theorem refersTo_of_unfolds {target : String} (h : Unfolds s (.reference target) b) :
    ∃ name, s.RefersTo (.reference target) name := by
  cases h with
  | item hresolve _ => exact exists_refersTo hresolve
  | member hresolve _ _ => exact exists_refersTo hresolve

/-- On every cycle there is a component, which contains itself. -/
theorem endless_of_cycle (h : TransGen (Unfolds s) a a) : Endless s a := by
  obtain ⟨target, hto, hcycle⟩ :=
    exists_reference_of_cycle (fun _ _ => sizeOfRef_lt_of_unfolds) h
  obtain ⟨_, hstep, -⟩ := TransGen.head'_iff.mp hcycle
  obtain ⟨name, hrefers⟩ := refersTo_of_unfolds hstep
  exact ⟨_, name, inside_of_reflTransGen hto, hrefers, _, _, hrefers, hrefers, hcycle⟩

/-- A schema for which a component is met that contains itself comes to a cycle. -/
theorem exists_cycle_of_endless (h : Endless s a) :
    ∃ b, Inside s a b ∧ TransGen (Unfolds s) b b := by
  obtain ⟨b, name, hinside, hrefers, c, d, hc, hd, hunfolds⟩ := h
  obtain ⟨e, hstep, hrest⟩ := TransGen.head'_iff.mp hunfolds
  have hb := hstep.congr (resolve_eq_of_refersTo hc hrefers)
  have hd' := hstep.congr (resolve_eq_of_refersTo hc hd)
  refine ⟨d, hinside.trans (inside_of_reflTransGen (.head hb hrest)), ?_⟩
  exact .head' hd' hrest

/-! ## What comes to an end -/

theorem not_cycle_of_unfolds (h : ∀ b, Unfolds s a b → ¬ TransGen (Unfolds s) b b) :
    ¬ TransGen (Unfolds s) a a := by
  intro hcycle
  obtain ⟨b, hstep, hback⟩ := TransGen.head'_iff.mp hcycle
  exact h b hstep (.tail' hback hstep)

/-- A schema that was worked on without a fault is on no cycle. -/
theorem not_cycle_of_covered {known : String → Prop} (h : Covered s known a) :
    ¬ TransGen (Unfolds s) a a := by
  induction h with
  | @leaf a component resolved hresolve hkind =>
    refine not_cycle_of_unfolds fun b hstep => ?_
    rcases hstep.cases_of_resolve hresolve with harray |
      ⟨-, properties, required, hobject, p, hp, -⟩
    · rw [harray] at hkind
      exact absurd hkind (by simp [scalarName?, isShapeless])
    · rw [hobject] at hkind
      have hempty : properties = [] := by simpa [scalarName?, isShapeless] using hkind
      rw [hempty] at hp
      exact absurd hp List.not_mem_nil
  | array hresolve hkind _ ih =>
    refine not_cycle_of_unfolds fun b hstep => ?_
    rcases hstep.cases_of_resolve hresolve with harray | ⟨-, _, _, hobject, _⟩
    · obtain rfl := Option.some.inj (SchemaKind.array.inj (hkind.symm.trans harray))
      exact ih
    · exact absurd (hkind.symm.trans hobject) (by simp)
  | component hresolve hkind _ =>
    refine not_cycle_of_unfolds fun b hstep => ?_
    rcases hstep.cases_of_resolve hresolve with harray | ⟨hnone, _⟩
    · exact absurd (hkind.symm.trans harray) (by simp)
    · exact absurd hnone (Option.some_ne_none _)
  | inlined hresolve hkind _ _ _ ih =>
    refine not_cycle_of_unfolds fun b hstep => ?_
    rcases hstep.cases_of_resolve hresolve with harray | ⟨-, _, _, hobject, p, hp, rfl⟩
    · exact absurd (hkind.symm.trans harray) (by simp)
    · obtain ⟨rfl, -⟩ := SchemaKind.object.inj (hkind.symm.trans hobject)
      exact ih p hp

theorem not_endless_of_covered {known : String → Prop}
    (hknown : ∀ name, known name → ComponentCovered s known name) (hcovered : Covered s known a) :
    ¬ Endless s a := by
  intro hendless
  obtain ⟨b, hinside, hcycle⟩ := exists_cycle_of_endless hendless
  exact not_cycle_of_covered (covered_of_inside hknown hinside hcovered) hcycle

/-! ## What does not come to an end -/

/-- When the bound is exceeded for members, it is for the schema of one of them. -/
theorem unbounded_of_membersOf
    {make : RefOr Schema → String → Registry → Except Fault (TypeRef × Registry)}
    {owner : String} {required : List String} {properties : List (String × RefOr Schema)}
    {members : List InputValue} {r : Registry}
    (h : membersOf make s owner required members properties r = .error .unbounded) :
    ∃ before p after members' r', properties = before ++ p :: after ∧
      membersOf make s owner required members before r = .ok (members', r') ∧
        s.shows p.2 = true ∧ make p.2 (propertyHint owner p.1) r' = .error .unbounded := by
  induction properties generalizing members r with
  | nil => exact nomatch h
  | cons q rest ih =>
    obtain ⟨property, schema⟩ := q
    cases hresolve : s.resolve schema with
    | error f =>
      rw [membersOf_of_unresolved hresolve] at h
      obtain ⟨p, rfl⟩ := problem_of_resolve hresolve
      exact nomatch h
    | ok found =>
      obtain ⟨component, resolved⟩ := found
      have hshows := shows_of_resolve hresolve
      cases hhides : s.hides resolved.data with
      | true =>
        rw [membersOf_of_hides hresolve hhides] at h
        obtain ⟨before, p, after, members', r', rfl, hbefore, hfails⟩ := ih h
        refine ⟨(property, schema) :: before, p, after, members', r', rfl, ?_, hfails⟩
        rw [membersOf_of_hides hresolve hhides]
        exact hbefore
      | false =>
        rw [hhides] at hshows
        rw [membersOf_of_shows hresolve hhides] at h
        rcases bind_eq_error.mp h with h | ⟨found, hmake, h⟩
        · exact ⟨[], (property, schema), rest, members, r, rfl, rfl, hshows, h⟩
        rcases bind_eq_error.mp h with h | ⟨members₁, hadd, h⟩
        · exact nomatch (addMember_eq_error.mp h).2
        · obtain ⟨before, p, after, members', r', rfl, hbefore, hfails⟩ := ih h
          refine ⟨(property, schema) :: before, p, after, members', r', rfl, ?_, hfails⟩
          rw [membersOf_of_shows hresolve hhides]
          exact bind_eq_ok.mpr ⟨found, hmake, bind_eq_ok.mpr ⟨members₁, hadd, hbefore⟩⟩

variable {all entered : List (RefOr Schema)} {r : Registry} {hint : String}

/-- On the way down to a schema in which no component is met that contains itself, what is left of
the depth is bound enough. -/
theorem typeOf_ne_unbounded {m : Nat}
    (hdescent : Descent s (reachableNodes s.components b) entered a r)
    (hdepth : depthLeft s (reachableNodes s.components b) entered r < m)
    (hends : ∀ c, Inside s a c → ¬ TransGen (Unfolds s) c c) :
    typeOf s m a hint r ≠ .error .unbounded := by
  induction m generalizing entered a hint r with
  | zero => exact absurd hdepth (Nat.not_lt_zero _)
  | succ m ih =>
    have hnew : a ∉ entered := by
      intro hmem
      have hcycle := TransGen.mono (fun _ _ => Leads.unfolds) _ _ (hdescent.leads a hmem)
      exact hends a (.refl a) hcycle
    cases hresolve : s.resolve a with
    | error f =>
      rw [typeOf_of_unresolved hresolve]
      obtain ⟨p, rfl⟩ := problem_of_resolve hresolve
      exact nofun
    | ok found =>
      obtain ⟨component, resolved⟩ := found
      obtain ⟨_, hkind⟩ | hkind | hkind | ⟨items, hkind⟩ | ⟨properties, required, hkind, hsome⟩ :=
        kind_cases resolved.kind
      · rw [typeOf_of_scalar hresolve hkind]
        exact nofun
      · rw [typeOf_of_shapeless hresolve hkind]
        exact nofun
      · rw [typeOf_of_array_none hresolve hkind]
        exact nofun
      · rw [typeOf_of_array hresolve hkind]
        intro h
        obtain ⟨hitems, hless⟩ := hdescent.step hnew
          (mem_reachableNodes_item hdescent.mem hresolve hkind) (fun _ hname => hname)
          (.item hresolve hkind)
        rcases bind_eq_error.mp h with h | ⟨found, -, h⟩
        · exact ih hitems (by omega) (fun c hc => hends c (.item hresolve hkind hc)) h
        have hitems := (bind_eq_error_of_ok fun _ => ⟨_, rfl⟩).mp h
        obtain ⟨p, hp⟩ := problem_of_resolve hitems
        exact nomatch hp
      · rw [typeOf_of_object hresolve hkind hsome]
        unfold objectType
        cases hassigned : component.bind (r.assigned? s.position) with
        | some type => exact nofun
        | none =>
          intro h
          rcases bind_eq_error.mp h with h | ⟨_, -, h⟩
          · obtain ⟨before, p, after, members, r', heq, hbefore, hshows, hfails⟩ :=
              unbounded_of_membersOf h
            have hp : p ∈ s.visible properties := by
              rw [heq]
              exact List.mem_filter.mpr
                ⟨List.mem_append_right _ (List.mem_cons_self ..), hshows⟩
            obtain ⟨_, hbelow, hless⟩ := hdescent.toMember hnew hresolve hkind hassigned heq
              (makesMembers_of_membersOf makes_of_typeOf hbefore) hshows
            exact ih hbelow (by omega) (fun c hc => hends c (.member hresolve hkind hp hc)) hfails
          · exact nomatch h

variable {c : Components} {position : Position}

/-- The work on a schema in which no component is met that contains itself comes to an end. -/
theorem endless_of_unbounded (h : schemaType c position a hint r = .error .unbounded) :
    Endless ⟨c, position⟩ a := by
  by_contra hends
  refine typeOf_ne_unbounded (descent_start c position a r) (depthLeft_start_lt c position a r)
    (fun b hinside hcycle => hends ?_) h
  obtain ⟨b', name, hinside', hrefers⟩ := endless_of_cycle hcycle
  exact ⟨b', name, hinside.trans hinside', hrefers⟩

/-- An endpoint for which no component is met that contains itself gets its field, or a fault of its
own, whatever was made before. -/
theorem endpointField_ne_unbounded {e : Endpoint}
    (h : ∀ position a, WorksOn e position a → ¬ Endless ⟨c, position⟩ a) (r : Registry) :
    endpointField c e r ≠ .error .unbounded := by
  intro hunbounded
  obtain ⟨position, a, hworks, _, _, hfails⟩ :=
    fails_of_endpointField (fun _ => Fault.noConfusion) hunbounded
  exact h position a hworks (endless_of_unbounded hfails)

/-! ## Documents -/

/-- For an endpoint of the document a component is met that contains itself. -/
def EndlessIn (j : Json) : Prop :=
  ∃ d endpoints, documentOf j = .ok d ∧ d.endpoints = .ok endpoints ∧
    ∃ e ∈ endpoints, ∃ position a, WorksOn e position a ∧ Endless ⟨d.components, position⟩ a

theorem endlessIn_of_schemaOf {j : Json} (h : schemaOf j = .error .unbounded) : EndlessIn j := by
  obtain ⟨d, endpoints, hdocument, hendpoints, e, he, position, a, hworks, _, _, hfails⟩ :=
    exists_unbounded_of_schemaOf h
  exact ⟨d, endpoints, hdocument, hendpoints, e, he, position, a, hworks,
    endless_of_unbounded hfails⟩

theorem not_endlessIn_of_schemaOf {j : Json} {schema : GraphQL.Schema}
    (h : schemaOf j = .ok schema) : ¬ EndlessIn j := by
  rintro ⟨d, endpoints, hd, he, e, hmem, position, a, hworks, hendless⟩
  obtain ⟨hdocument, hendpoints, hfields, -⟩ := makes_of_schemaOf h
  obtain rfl := Except.ok.inj (hdocument.symm.trans hd)
  obtain rfl := Except.ok.inj (hendpoints.symm.trans he)
  obtain ⟨hsettled, hcovered⟩ := hfields.covered
  exact not_endless_of_covered (hsettled position) (hcovered e hmem position a hworks) hendless

/-- The types of a document do not come to an end exactly if, for one of its endpoints, a component
is met that unfolds to itself through arrays and objects that are no components, and nothing is
found to be wrong before.  It is not for want of a larger bound then: a type that is worked on is
not finished under any bound at all. -/
theorem unbounded_iff {j : Json} :
    (schemaOf j = .error .unbounded ↔
      EndlessIn j ∧ (∀ p, schemaOf j ≠ .error (.problem p)) ∧
        ∀ name, schemaOf j ≠ .error (.duplicateField name)) ∧
      (schemaOf j = .error .unbounded → ExceedsAllBounds j) := by
  refine ⟨⟨fun h => ?_, ?_⟩, exceedsAllBounds_of_schemaOf⟩
  · refine ⟨endlessIn_of_schemaOf h, fun p hp => ?_, fun name hname => ?_⟩
    · exact nomatch h.symm.trans hp
    · exact nomatch h.symm.trans hname
  · rintro ⟨hendless, hproblem, hduplicate⟩
    cases hschema : schemaOf j with
    | ok schema => exact absurd hendless (not_endlessIn_of_schemaOf hschema)
    | error f =>
      cases f with
      | problem p => exact absurd hschema (hproblem p)
      | duplicateField name => exact absurd hschema (hduplicate name)
      | unbounded => rfl

/-- A document with an array of objects that refer to the array again. -/
def nodesDocument : Json :=
  .object [("openapi", .string "3.0.0"),
    ("info", .object [("title", .string "Trees"), ("version", .string "1")]),
    ("paths", .object [("/nodes", .object [("get", .object [("responses", .object [("200",
      .object [("description", .string "All nodes"), ("content", .object [("application/json",
        .object [("schema", .object [("$ref", .string "#/components/schemas/Nodes")])])])])])])])]),
    ("components", .object [("schemas", .object [("Nodes", .object [("type", .string "array"),
      ("items", .object [("type", .string "object"), ("properties", .object [("children",
        .object [("$ref", .string "#/components/schemas/Nodes")])])])])])])]

/-- The items of its array. -/
def nodeItems : Schema :=
  .mk {} (.object [("children", .reference "#/components/schemas/Nodes")] [])

/-- Its components. -/
def nodesComponents : Components :=
  { schemas := [("Nodes", .item (.mk {} (.array (some (.item nodeItems)))))] }

/-- The schema is an array with these items. -/
def HasItems (s : Setting) (a items : RefOr Schema) : Prop :=
  ∃ component resolved, s.resolve a = .ok (component, resolved) ∧
    resolved.kind = .array (some items)

theorem hasItems_nodes {position : Position} {a items : RefOr Schema} {name : String}
    (hrefers : Setting.RefersTo ⟨nodesComponents, position⟩ a name)
    (h : HasItems ⟨nodesComponents, position⟩ a items) : items = .item nodeItems := by
  obtain ⟨resolved, hresolve⟩ := hrefers
  obtain ⟨_, _, hresolve', hkind⟩ := h
  obtain ⟨-, rfl⟩ := Prod.mk.inj (Except.ok.inj (hresolve.symm.trans hresolve'))
  have hget := Dictionary.mem_of_get? (get?_schemas_of_resolve hresolve)
  obtain ⟨-, hvalue⟩ := Prod.mk.inj (List.mem_singleton.mp hget)
  rw [OpenApi.RefOr.item.inj hvalue] at hkind
  exact (Option.some.inj (SchemaKind.array.inj hkind)).symm

/-- The types of the document do not come to an end, under no bound at all, although no array in it
contains itself through arrays alone. -/
theorem unbounded_nodes :
    schemaOf nodesDocument = .error .unbounded ∧ ExceedsAllBounds nodesDocument ∧
      ∀ d, documentOf nodesDocument = .ok d → ∀ position name a b,
        Setting.RefersTo ⟨d.components, position⟩ a name →
          Setting.RefersTo ⟨d.components, position⟩ b name →
            ¬ TransGen (HasItems ⟨d.components, position⟩) a b := by
  have hschema : schemaOf nodesDocument = .error .unbounded := by decide +kernel
  refine ⟨hschema, exceedsAllBounds_of_schemaOf hschema, fun d hd position name a b ha hb hitems =>
    ?_⟩
  have hcomponents : (documentOf nodesDocument).map (·.components) = .ok nodesComponents := rfl
  rw [hd] at hcomponents
  rw [show d.components = nodesComponents from Except.ok.inj hcomponents] at ha hb hitems
  obtain ⟨items, hfirst, hrest⟩ := TransGen.head'_iff.mp hitems
  obtain rfl := hasItems_nodes ha hfirst
  have hresolve : Setting.resolve ⟨nodesComponents, position⟩ (.item nodeItems) =
      .ok (none, nodeItems) := rfl
  rcases ReflTransGen.cases_head hrest with rfl | ⟨_, ⟨_, _, hresolve', hkind⟩, -⟩
  · obtain ⟨_, hcomponent⟩ := hb
    exact nomatch hresolve.symm.trans hcomponent
  · obtain ⟨-, rfl⟩ := Prod.mk.inj (Except.ok.inj (hresolve.symm.trans hresolve'))
    exact nomatch hkind

end ApiGraph.Generation
