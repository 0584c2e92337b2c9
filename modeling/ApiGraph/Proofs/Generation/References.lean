import ApiGraph.Proofs.Generation.Cycles
import ApiGraph.Proofs.Generation.Frame
import ApiGraph.Proofs.Generation.Places
import ApiGraph.Proofs.OpenApi.References

/-!
# References that are met

The work on a document meets the references of its operations, and then those in the schemas of its
endpoints: in a schema, in the items of an array, and in the properties of an object.  Properties
that are left out are followed too, so that it is known that they are, but what stands below them is
not worked on (`Touches`).

* `blames_typeOf`: a type that cannot be made has a reference or an array without items to blame,
  which is met in the schema.
* `Makes.followed`: when components have been worked on, all of their properties could be followed.
* `met_of_schemaOf`: an error about a reference or an array names one that is met, and without an
  error all that are met are in order.
* `met_owner`: a pet with an owner who is no component, a family in which every reference leads to a
  component, and references that lead nowhere and are not met.
-/

namespace ApiGraph.Generation

open ApiGraph.GraphQL hiding Schema
open ApiGraph.OpenApi (Components Document Endpoint EndpointParameter EndpointBody Explains
  PlacedOperation Problem RefOr Schema SchemaKind Section)

/-! ## Inside of schemas -/

/-- What is met in a schema: what is worked on, and the properties of the objects there, also those
that are left out. -/
inductive Touches (s : Setting) (a : RefOr Schema) : RefOr Schema → Prop
  | inside {b : RefOr Schema} (h : Inside s a b) : Touches s a b
  | property {b : RefOr Schema} {component : Option String} {resolved : Schema}
      {properties : List (String × RefOr Schema)} {required : List String}
      {p : String × RefOr Schema} (h : Inside s a b)
      (hresolve : s.resolve b = .ok (component, resolved))
      (hkind : resolved.kind = .object properties required) (hp : p ∈ properties) :
      Touches s a p.2

/-- An array without items is worked on for the schema. -/
def LacksItems (s : Setting) (a : RefOr Schema) : Prop :=
  ∃ b component resolved, Inside s a b ∧ s.resolve b = .ok (component, resolved) ∧
    resolved.kind = .array none

/-- If the fault is a problem of the document, then one of a reference or of an array that is met in
the schema. -/
inductive Blames (s : Setting) (a : RefOr Schema) : Fault → Prop
  | reference {target : String} {p : Problem} (hmet : Touches s a (.reference target))
      (h : Explains s.components (fun kind r => kind = .schemas ∧ r = target) p) :
      Blames s a (.problem p)
  | items (h : LacksItems s a) : Blames s a (.problem .arrayWithoutItems)
  | member (name : String) : Blames s a (.duplicateField name)
  | unbounded : Blames s a .unbounded

variable {s : Setting} {a b : RefOr Schema} {component : Option String} {resolved : Schema}

theorem Touches.mono (hinside : ∀ x, Inside s b x → Inside s a x) {x : RefOr Schema}
    (h : Touches s b x) : Touches s a x := by
  cases h with
  | inside h => exact .inside (hinside _ h)
  | property h hresolve hkind hp => exact .property (hinside _ h) hresolve hkind hp

theorem Blames.mono (hinside : ∀ x, Inside s b x → Inside s a x) {f : Fault} (h : Blames s b f) :
    Blames s a f := by
  cases h with
  | reference hmet h => exact .reference (hmet.mono hinside) h
  | items h =>
    obtain ⟨x, component, resolved, hx, hresolve, hkind⟩ := h
    exact .items ⟨x, component, resolved, hinside x hx, hresolve, hkind⟩
  | member name => exact .member name
  | unbounded => exact .unbounded

theorem blames_resolve (hmet : Touches s a b) : Reports (Blames s a) (s.resolve b) := by
  refine .mapError ?_
  cases b with
  | item value => exact .ok _
  | reference target =>
    have hexplains : Reports
        (Explains s.components fun kind r => kind = Section.schemas ∧ r = target)
        (s.components.schema target) :=
      OpenApi.explains_lookUp .schemas (fun _ => rfl) ⟨rfl, rfl⟩
    exact (hexplains.mono fun _ => .reference hmet).map

section Objects

variable {make : RefOr Schema → String → Registry → Except Fault (TypeRef × Registry)}
  (hmake : ∀ schema hint r, Reports (Blames s schema) (make schema hint r))
  {properties : List (String × RefOr Schema)}
include hmake

theorem blames_membersOf (htouches : ∀ p ∈ properties, Touches s a p.2)
    (hinside : ∀ p ∈ s.visible properties, ∀ x, Inside s p.2 x → Inside s a x) (owner : String)
    (required : List String) (members : List InputValue) (r : Registry) :
    Reports (Blames s a) (membersOf make s owner required members properties r) := by
  induction properties generalizing members r with
  | nil => exact .ok _
  | cons p rest ih =>
    obtain ⟨property, schema⟩ := p
    obtain ⟨hfirst, hothers⟩ := List.forall_mem_cons.mp htouches
    cases hresolve : s.resolve schema with
    | error f =>
      rw [membersOf_of_unresolved hresolve]
      exact .error ((blames_resolve hfirst).of_error f hresolve)
    | ok found =>
      obtain ⟨component, resolved⟩ := found
      rw [visible_cons, shows_of_resolve hresolve] at hinside
      cases hhides : s.hides resolved.data with
      | true =>
        rw [membersOf_of_hides hresolve hhides]
        rw [hhides] at hinside
        exact ih hothers hinside members r
      | false =>
        rw [membersOf_of_shows hresolve hhides]
        rw [hhides] at hinside
        obtain ⟨hhere, hthere⟩ := List.forall_mem_cons.mp hinside
        refine Reports.bind ((hmake schema _ r).mono fun f hf => hf.mono hhere) fun _ _ => ?_
        exact (Reports.guarded (.member _) _).bind fun _ _ => ih hothers hthere ..

theorem blames_objectType {required : List String}
    (hresolve : s.resolve a = .ok (component, resolved))
    (hkind : resolved.kind = .object properties required) (base : String) (r : Registry) :
    Reports (Blames s a)
      (objectType make s component base resolved.data properties required r) := by
  have htouches : ∀ p ∈ properties, Touches s a p.2 := fun p hp =>
    .property (.refl a) hresolve hkind hp
  have hinside : ∀ p ∈ s.visible properties, ∀ x, Inside s p.2 x → Inside s a x :=
    fun p hp x hx => .member hresolve hkind hp hx
  unfold objectType
  split
  · exact .ok _
  · exact (blames_membersOf hmake htouches hinside ..).bind fun _ _ => .ok _

end Objects

/-- A type that cannot be made has something to blame that is met in the schema. -/
theorem blames_typeOf (s : Setting) (bound : Nat) (a : RefOr Schema) (hint : String)
    (r : Registry) : Reports (Blames s a) (typeOf s bound a hint r) := by
  induction bound generalizing a hint r with
  | zero => exact .error .unbounded
  | succ bound ih =>
    cases hresolve : s.resolve a with
    | error f =>
      rw [typeOf_of_unresolved hresolve]
      exact .error ((blames_resolve (.inside (.refl a))).of_error f hresolve)
    | ok found =>
      obtain ⟨component, resolved⟩ := found
      obtain ⟨_, hkind⟩ | hkind | hkind | ⟨items, hkind⟩ | ⟨properties, required, hkind, hsome⟩ :=
        kind_cases resolved.kind
      · rw [typeOf_of_scalar hresolve hkind]
        exact .ok _
      · rw [typeOf_of_shapeless hresolve hkind]
        exact .ok _
      · rw [typeOf_of_array_none hresolve hkind]
        exact .error (.items ⟨a, component, resolved, .refl a, hresolve, hkind⟩)
      · rw [typeOf_of_array hresolve hkind]
        have hinside : ∀ x, Inside s items x → Inside s a x := fun _ => .item hresolve hkind
        refine Reports.bind ((ih items _ r).mono fun f hf => hf.mono hinside) fun _ _ => ?_
        exact (blames_resolve (.inside (hinside items (.refl items)))).bind fun _ _ => .ok _
      · rw [typeOf_of_object hresolve hkind hsome]
        exact blames_objectType ih hresolve hkind ..

/-! ## Fields -/

variable {c : Components}

/-- If the fault is a problem of the document, then one of a schema of the endpoints, or of the name
of an argument. -/
inductive EndpointsBlame (c : Components) (endpoints : List Endpoint) : Fault → Prop
  | schema {e : Endpoint} {position : Position} {a : RefOr Schema} {f : Fault}
      (he : e ∈ endpoints) (hworks : WorksOn e position a) (h : Blames ⟨c, position⟩ a f) :
      EndpointsBlame c endpoints f
  | argument (field argument : String) :
      EndpointsBlame c endpoints (.problem (.duplicateArgument field argument))
  | field (name : String) : EndpointsBlame c endpoints (.duplicateField name)

theorem EndpointsBlame.mono {endpoints endpoints' : List Endpoint} {f : Fault}
    (h : EndpointsBlame c endpoints f) (hsubset : endpoints ⊆ endpoints') :
    EndpointsBlame c endpoints' f := by
  cases h with
  | schema he hworks h => exact .schema (hsubset he) hworks h
  | argument field argument => exact .argument field argument
  | field name => exact .field name

section Fields

variable {e : Endpoint}

theorem blame_schemaType {position : Position} {a : RefOr Schema} (hworks : WorksOn e position a)
    (hint : String) (r : Registry) :
    Reports (EndpointsBlame c [e]) (schemaType c position a hint r) :=
  (blames_typeOf ..).mono fun _ => .schema (List.mem_singleton_self e) hworks

theorem blame_optionalType {position : Position} {schema : Option (RefOr Schema)}
    (hworks : ∀ a ∈ schema, WorksOn e position a) (hint : String) (r : Registry) :
    Reports (EndpointsBlame c [e]) (optionalType c position schema hint r) := by
  cases schema with
  | none => exact .ok _
  | some a => exact blame_schemaType (hworks a rfl) hint r

theorem blame_parameterArguments (field base : String) {ps : List EndpointParameter}
    (hsubset : ps ⊆ e.parameters) (arguments : List InputValue) (r : Registry) :
    Reports (EndpointsBlame c [e]) (parameterArguments c field base arguments ps r) := by
  induction ps generalizing arguments r with
  | nil => exact .ok _
  | cons p rest ih =>
    obtain ⟨hp, hrest⟩ := List.cons_subset.mp hsubset
    refine Reports.bind (blame_optionalType (fun a ha => .parameter hp ha) ..) fun _ _ => ?_
    exact (Reports.guarded (.argument field _) _).bind fun _ _ => ih hrest ..

theorem blame_bodyBase {b : EndpointBody} (hb : b ∈ e.body) (base : String) :
    Reports (EndpointsBlame c [e]) (bodyBase c base b.schema) := by
  cases hschema : b.schema with
  | item value => exact .ok base
  | reference target =>
    -- The reference is followed for the name alone, before it is for the type.
    have hmet : Reports (Blames ⟨c, .input⟩ b.schema) (Setting.resolve ⟨c, .input⟩ b.schema) :=
      blames_resolve (.inside (.refl b.schema))
    refine ⟨fun f hf => ?_⟩
    obtain ⟨p, hp, rfl⟩ := mapError_eq_error.mp hf
    rw [map_eq_error] at hp
    refine .schema (List.mem_singleton_self e) (.body hb) (hmet.of_error _ ?_)
    rw [hschema]
    exact mapError_eq_error.mpr ⟨p, map_eq_error.mpr hp, rfl⟩

theorem blame_bodyArgument (field base : String) (arguments : List InputValue) (r : Registry) :
    Reports (EndpointsBlame c [e]) (bodyArgument c field base arguments e.body r) := by
  cases hbody : e.body with
  | none => exact .ok _
  | some b =>
    refine (blame_bodyBase hbody base).bind fun _ _ => ?_
    refine (blame_schemaType (.body hbody) ..).bind fun _ _ => ?_
    exact (Reports.guarded (.argument field _) _).bind fun _ _ => .ok _

theorem blame_endpointField (e : Endpoint) (r : Registry) :
    Reports (EndpointsBlame c [e]) (endpointField c e r) := by
  refine Reports.bind (blame_optionalType (fun a ha => .response ha) ..) fun _ _ => ?_
  refine (blame_parameterArguments _ _ (List.Subset.refl _) ..).bind fun _ _ => ?_
  exact (blame_bodyArgument ..).bind fun _ _ => .ok _

end Fields

theorem blame_rootFields (roots : Roots) (endpoints : List Endpoint) (r : Registry) :
    Reports (EndpointsBlame c endpoints) (rootFields c roots endpoints r) := by
  induction endpoints generalizing roots r with
  | nil => exact .ok _
  | cons e rest ih =>
    have hfield := (blame_endpointField (c := c) e r).mono fun f hf =>
      hf.mono (List.cons_subset_cons e (List.nil_subset rest))
    refine hfield.bind fun made _ => Reports.bind ⟨fun f hf => ?_⟩ fun roots' _ => ?_
    · rw [(add_eq_error.mp hf).2]
      exact .field _
    · exact (ih roots' made.2).mono fun f hf => hf.mono (List.subset_cons_self e rest)

/-! ## Components that have been worked on -/

/-- All properties of the component can be followed, if it is an object. -/
def PropertiesResolve (s : Setting) (name : String) : Prop :=
  ∀ a resolved properties required, s.resolve a = .ok (some name, resolved) →
    resolved.kind = .object properties required →
      ∀ p ∈ properties, ∃ found, s.resolve p.2 = .ok found

/-- Of all components that got a type between the registries, the properties can be followed. -/
def Followed (c : Components) (r r' : Registry) : Prop :=
  ∀ position name, r'.Has position name →
    r.Has position name ∨ PropertiesResolve ⟨c, position⟩ name

theorem Followed.refl (c : Components) (r : Registry) : Followed c r r :=
  fun _ _ h => Or.inl h

theorem Followed.trans {r r₁ r' : Registry} (h : Followed c r r₁) (h' : Followed c r₁ r') :
    Followed c r r' := by
  intro position name hhas
  rcases h' position name hhas with hhas | hresolve
  · exact h position name hhas
  · exact Or.inr hresolve

theorem followed_of_object {base : String} {r r₂ : Registry} {t : Composite}
    {properties : List (String × RefOr Schema)} {required : List String}
    (hresolve : s.resolve a = .ok (component, resolved))
    (hkind : resolved.kind = .object properties required)
    (hresolves : ∀ p ∈ properties, ∃ found, s.resolve p.2 = .ok found)
    (hgrown : Grown s.components (beginObject s component base r).2 r₂)
    (hfollowed : Followed s.components (beginObject s component base r).2 r₂) :
    Followed s.components r (endObject s component t r₂).2 := by
  intro position name hhas
  have hbegun : ∀ name, component = some name → r₂.Has s.position name := fun name hname =>
    hgrown.has _ _ (has_beginObject.mpr (Or.inl ⟨rfl, hname⟩))
  rw [has_endObject (hbegun name)] at hhas
  rcases hfollowed position name hhas with hhas | hdone
  · rcases has_beginObject.mp hhas with ⟨rfl, rfl⟩ | hhas
    · refine Or.inr fun a' resolved' properties' required' hresolve' hkind' => ?_
      obtain ⟨rfl, -⟩ := object_eq_of_resolve hresolve hkind hresolve' hkind'
      exact hresolves
    · exact Or.inl hhas
  · exact Or.inr hdone

mutual

theorem Makes.followed {schema : RefOr Schema} {hint : String} {r r' : Registry} {type : TypeRef}
    (hmakes : Makes s schema hint r type r') : Followed s.components r r' :=
  match hmakes with
  | .scalar _ _ => .refl _ _
  | .json _ _ => .refl _ _
  | .array _ _ hitem _ => hitem.followed
  | .known _ _ _ => .refl _ _
  | .new hresolve hkind _ hmembers =>
    followed_of_object hresolve hkind hmembers.resolves hmembers.grown.1 hmembers.followed

theorem MakesMembers.followed {owner : String} {required : List String}
    {members members' : List InputValue} {properties : List (String × RefOr Schema)}
    {r r' : Registry}
    (hmakes : MakesMembers s owner required members properties r members' r') :
    Followed s.components r r' :=
  match hmakes with
  | .nil => .refl _ _
  | .hidden _ _ hrest => hrest.followed
  | .shown _ _ hmember _ hrest => hmember.followed.trans hrest.followed

end

theorem Step.followed {endpoints : List Endpoint} {r r' : Registry}
    (h : Step c endpoints r r') : Followed c r r' := by
  cases h with
  | answer _ _ hmakes => exact hmakes.followed
  | argument _ _ hmakes => exact hmakes.followed

theorem followed_of_steps {endpoints : List Endpoint} {r r' : Registry}
    (h : Relation.ReflTransGen (Step c endpoints) r r') : Followed c r r' :=
  keeps_of_steps (fun _ _ hstep hfollowed => hfollowed.trans hstep.followed) h (.refl c r)

/-! ## What is met in what is covered -/

section Covered

variable {known : String → Prop} (hknown : ∀ name, known name → ComponentCovered s known name)
  (hcovered : Covered s known a)
include hcovered

theorem not_array_none_of_covered (hresolve : s.resolve a = .ok (component, resolved)) :
    resolved.kind ≠ .array none := by
  intro hkind
  cases hcovered with
  | leaf hresolve' hkind' =>
    obtain ⟨-, rfl⟩ := Prod.mk.inj (Except.ok.inj (hresolve.symm.trans hresolve'))
    rw [hkind] at hkind'
    simp [scalarName?, isShapeless] at hkind'
  | array hresolve' hkind' | component hresolve' hkind' | inlined hresolve' hkind' =>
    obtain ⟨-, rfl⟩ := Prod.mk.inj (Except.ok.inj (hresolve.symm.trans hresolve'))
    cases hkind.symm.trans hkind'

theorem resolves_property_of_covered
    (hfollowed : ∀ name, known name → PropertiesResolve s name)
    {properties : List (String × RefOr Schema)} {required : List String}
    (hresolve : s.resolve a = .ok (component, resolved))
    (hkind : resolved.kind = .object properties required) {p : String × RefOr Schema}
    (hp : p ∈ properties) : ∃ found, s.resolve p.2 = .ok found := by
  cases hcovered with
  | leaf hresolve' hkind' =>
    obtain ⟨-, rfl⟩ := Prod.mk.inj (Except.ok.inj (hresolve.symm.trans hresolve'))
    rw [hkind] at hkind'
    rcases hkind' with hkind' | hkind'
    · exact nomatch hkind'
    · rw [List.isEmpty_iff.mp hkind'] at hp
      exact absurd hp List.not_mem_nil
  | array hresolve' hkind' =>
    obtain ⟨-, rfl⟩ := Prod.mk.inj (Except.ok.inj (hresolve.symm.trans hresolve'))
    exact nomatch hkind.symm.trans hkind'
  | component hresolve' _ hassigned =>
    obtain ⟨rfl, rfl⟩ := Prod.mk.inj (Except.ok.inj (hresolve.symm.trans hresolve'))
    exact hfollowed _ hassigned a resolved properties required hresolve hkind p hp
  | inlined hresolve' hkind' hresolves =>
    obtain ⟨-, rfl⟩ := Prod.mk.inj (Except.ok.inj (hresolve.symm.trans hresolve'))
    obtain ⟨rfl, -⟩ := SchemaKind.object.inj (hkind.symm.trans hkind')
    exact hresolves p hp

include hknown

theorem resolves_of_touches (hfollowed : ∀ name, known name → PropertiesResolve s name)
    (htouches : Touches s a b) : ∃ found, s.resolve b = .ok found := by
  cases htouches with
  | inside h => exact (covered_of_inside hknown h hcovered).resolves
  | property h hresolve hkind hp =>
    exact resolves_property_of_covered (covered_of_inside hknown h hcovered) hfollowed hresolve
      hkind hp

theorem not_lacksItems_of_covered : ¬ LacksItems s a := by
  rintro ⟨x, component, resolved, hinside, hresolve, hkind⟩
  exact not_array_none_of_covered (covered_of_inside hknown hinside hcovered) hresolve hkind

end Covered

/-! ## Documents -/

/-- The reference, to a component of the kind, is met from some operation: as one of its parts, or
in a schema of its endpoint. -/
inductive Meets (d : Document) : Section → String → Prop
  | part {x : PlacedOperation} {kind : Section} {reference : String} (hx : x ∈ d.operations)
      (h : x.Refers d.components kind reference) : Meets d kind reference
  | schema {x : PlacedOperation} {e : Endpoint} {position : Position} {a : RefOr Schema}
      {reference : String} (hx : x ∈ d.operations) (he : x.endpoint d.components = .ok e)
      (hworks : WorksOn e position a)
      (h : Touches ⟨d.components, position⟩ a (.reference reference)) :
      Meets d .schemas reference

/-- An array without items is worked on for an operation. -/
def MeetsBareArray (d : Document) : Prop :=
  ∃ x ∈ d.operations, ∃ e position a, x.endpoint d.components = .ok e ∧ WorksOn e position a ∧
    LacksItems ⟨d.components, position⟩ a

/-- If the fault is about a reference or an array, then about one that is met. -/
inductive Accounted (d : Document) : Fault → Prop
  | reference {p : Problem} (h : Explains d.components (Meets d) p) : Accounted d (.problem p)
  | path (path : String) : Accounted d (.problem (.pathReference path))
  | items (h : MeetsBareArray d) : Accounted d (.problem .arrayWithoutItems)
  | argument (field argument : String) :
      Accounted d (.problem (.duplicateArgument field argument))
  | invalid (v : Violation) : Accounted d (.problem (.invalidSchema v))
  | member (name : String) : Accounted d (.duplicateField name)
  | unbounded : Accounted d .unbounded

variable {d : Document}

theorem accounted_of_blames {x : PlacedOperation} {e : Endpoint} {position : Position}
    {f : Fault} (hx : x ∈ d.operations) (he : x.endpoint d.components = .ok e)
    (hworks : WorksOn e position a) (h : Blames ⟨d.components, position⟩ a f) : Accounted d f := by
  cases h with
  | reference hmet h =>
    refine .reference (h.mono ?_)
    rintro kind reference ⟨rfl, rfl⟩
    exact .schema hx he hworks hmet
  | items h => exact .items ⟨x, hx, e, position, a, he, hworks, h⟩
  | member name => exact .member name
  | unbounded => exact .unbounded

theorem accounts_endpointsOn {paths : List (String × RefOr OpenApi.PathItem)}
    (hsubset : OpenApi.operationsOn paths ⊆ d.operations) :
    Reports (fun p => Accounted d (.problem p)) (OpenApi.endpointsOn d.components paths) := by
  induction paths with
  | nil => exact .ok []
  | cons head rest ih =>
    obtain ⟨path, item⟩ := head
    cases item with
    | reference target => exact .error (.path path)
    | item item =>
      obtain ⟨hhere, hrest⟩ := List.append_subset.mp hsubset
      have hitem : Reports (fun p => Accounted d (.problem p))
          (item.endpoints d.components path) := by
        refine Reports.mapM fun o ho => ?_
        have hx : (⟨path, o.1, o.2, item.parameters⟩ : PlacedOperation) ∈ d.operations :=
          hhere (List.mem_map.mpr ⟨o, ho, rfl⟩)
        exact (OpenApi.explains_endpoint ⟨path, o.1, o.2, item.parameters⟩).mono fun p hp =>
          .reference (hp.mono fun kind reference h => .part hx h)
      exact hitem.bind fun _ _ => (ih hrest).bind fun _ _ => .ok _

theorem accounts_schemaOfDocument (d : Document) : Reports (Accounted d) (schemaOfDocument d) := by
  refine Reports.bind (.mapError (accounts_endpointsOn (List.Subset.refl _))) ?_
  intro endpoints hendpoints
  rw [mapError_eq_ok] at hendpoints
  have hrun := blame_rootFields (c := d.components) {} endpoints (.start d.components.schemas.keys)
  have hassembled : Reports (Accounted d) (assembled d.components endpoints) := by
    refine Reports.bind (hrun.mono fun f hf => ?_) fun _ _ => .ok _
    cases hf with
    | schema he hworks h =>
      obtain ⟨x, hx, hendpoint⟩ := OpenApi.exists_operation hendpoints he
      exact accounted_of_blames hx hendpoint hworks h
    | argument field argument => exact .argument field argument
    | field name => exact .member name
  refine hassembled.bind fun schema _ => ?_
  · split
    · exact .error (.invalid _)
    · exact .ok _

/-- When a schema is made, all references that are met lead to components, and all arrays have
items. -/
theorem resolves_of_met {j : Json} {schema : GraphQL.Schema} (hdocument : documentOf j = .ok d)
    (h : schemaOf j = .ok schema) :
    (∀ kind reference, Meets d kind reference → d.components.Resolves kind reference) ∧
      ¬ MeetsBareArray d := by
  obtain ⟨hdocument', hendpoints, hmakes, -⟩ := makes_of_schemaOf h
  obtain rfl := Except.ok.inj (hdocument'.symm.trans hdocument)
  obtain ⟨hsettled, hcovered⟩ := hmakes.covered
  have hfollowed : ∀ {position name}, _ → PropertiesResolve ⟨_, position⟩ name :=
    fun hhas => (followed_of_steps hmakes.steps _ _ hhas).resolve_left nofun
  constructor
  · intro kind reference hmet
    cases hmet with
    | part hx h =>
      obtain ⟨e, -, he⟩ := OpenApi.exists_endpoint hendpoints hx
      exact OpenApi.resolves_of_endpoint he h
    | @schema x e position a reference hx he hworks htouches =>
      obtain ⟨e', hmem, he'⟩ := OpenApi.exists_endpoint hendpoints hx
      obtain rfl := Except.ok.inj (he'.symm.trans he)
      obtain ⟨found, hfound⟩ := resolves_of_touches (hsettled position)
        (hcovered e' hmem position a hworks) (fun _ => hfollowed) htouches
      obtain ⟨_, hlookUp, -⟩ := map_eq_ok.mp (mapError_eq_ok.mp hfound)
      exact OpenApi.resolves_of_lookUp .schemas (fun _ => rfl) hlookUp
  · rintro ⟨x, hx, e, position, a, he, hworks, hlacks⟩
    obtain ⟨e', hmem, he'⟩ := OpenApi.exists_endpoint hendpoints hx
    obtain rfl := Except.ok.inj (he'.symm.trans he)
    exact not_lacksItems_of_covered (hsettled position) (hcovered e' hmem position a hworks) hlacks

/-- An error about a reference or an array without items is about one that is met; and if a schema
is made, all references that are met lead to components, and all arrays have items. -/
theorem met_of_schemaOf {j : Json} (hdocument : documentOf j = .ok d) :
    (∀ reference, schemaOf j = .error (.problem (.unresolvedReference reference)) →
      ∃ kind, Meets d kind reference ∧ d.components.Dangles kind reference) ∧
    (∀ name, schemaOf j = .error (.problem (.referenceToReference name)) →
      ∃ kind reference, Meets d kind reference ∧ d.components.Chains kind reference name) ∧
    (schemaOf j = .error (.problem .arrayWithoutItems) → MeetsBareArray d) ∧
    ∀ schema, schemaOf j = .ok schema →
      (∀ kind reference, Meets d kind reference → d.components.Resolves kind reference) ∧
        ¬ MeetsBareArray d := by
  have haccounted : ∀ f, schemaOf j = .error f → Accounted d f := by
    intro f hf
    unfold schemaOf at hf
    rw [hdocument] at hf
    exact (accounts_schemaOfDocument d).of_error f hf
  refine ⟨fun reference h => ?_, fun name h => ?_, fun h => ?_, fun schema h =>
    resolves_of_met hdocument h⟩
  · cases haccounted _ h with
    | reference hexplains =>
      cases hexplains with
      | dangling hmet hdangles => exact ⟨_, hmet, hdangles⟩
  · cases haccounted _ h with
    | reference hexplains =>
      cases hexplains with
      | chained hmet hchains => exact ⟨_, _, hmet, hchains⟩
  · cases haccounted _ h with
    | reference hexplains => exact nomatch hexplains
    | items hitems => exact hitems

/-- A document with pets that have an owner, without a component for owners. -/
def strayDocument : Json :=
  .object [("openapi", .string "3.0.0"),
    ("info", .object [("title", .string "Pets"), ("version", .string "1")]),
    ("paths", .object [("/pets", .object [("get", .object [("responses", .object [("200",
      .object [("description", .string "A pet"), ("content", .object [("application/json",
        .object [("schema", .object [("$ref", .string "#/components/schemas/Pet")])])])])])])])]),
    ("components", .object [("schemas", .object [
      ("Pet", .object [("type", .string "object"), ("properties", .object [
        ("owner", .object [("$ref", .string "#/components/schemas/Owner")])])])])])]

/-- A document with a response of failure that leads nowhere, and a pet with a key, for the keepers
alone, whose maker is no component. -/
def keptDocument : Json :=
  .object [("openapi", .string "3.0.0"),
    ("info", .object [("title", .string "Pets"), ("version", .string "1")]),
    ("paths", .object [("/pets", .object [("get", .object [("responses", .object [
      ("404", .object [("$ref", .string "#/components/responses/Lost")]),
      ("200", .object [("description", .string "A pet"), ("content", .object [("application/json",
        .object [("schema", .object [("type", .string "object"), ("properties", .object [
          ("name", .object [("type", .string "string")]),
          ("key", .object [("type", .string "object"), ("writeOnly", .bool true),
            ("properties", .object [("maker",
              .object [("$ref", .string "#/components/schemas/Maker")])])])])])])])])])])])])]

/-- The answer of that document. -/
def keptResponse : RefOr Schema :=
  .item (.mk {} (.object [("name", .item (.mk {} .string)),
    ("key", .item (.mk { writeOnly := true }
      (.object [("maker", .reference "#/components/schemas/Maker")] [])))] []))

/-- The owner of a stray pet is met and is no component.  In a family all that is met is one.  And
what leads nowhere does no harm where it is not met: in a response of failure, and below a property
that is left out. -/
theorem met_owner :
    schemaOf strayDocument = .error (.problem (.unresolvedReference "#/components/schemas/Owner")) ∧
    (∃ d, documentOf strayDocument = .ok d ∧ ∃ kind,
      Meets d kind "#/components/schemas/Owner" ∧
        d.components.Dangles kind "#/components/schemas/Owner") ∧
    (∃ d, documentOf familyDocument = .ok d ∧ ∀ kind reference, Meets d kind reference →
      d.components.Resolves kind reference) ∧
    ∃ schema d, schemaOf keptDocument = .ok schema ∧ documentOf keptDocument = .ok d ∧
      (∃ x ∈ d.operations, (.code 404, .reference "#/components/responses/Lost") ∈
        x.operation.responses) ∧
      d.components.Dangles .responses "#/components/responses/Lost" ∧
      d.components.Dangles .schemas "#/components/schemas/Maker" ∧
      ¬ Meets d .responses "#/components/responses/Lost" ∧
      ¬ Meets d .schemas "#/components/schemas/Maker" := by
  have hstray : schemaOf strayDocument =
      .error (.problem (.unresolvedReference "#/components/schemas/Owner")) := by decide +kernel
  have hfamily : schemaOf familyDocument = .ok familySchema := by decide +kernel
  obtain ⟨d, hd⟩ : ∃ d, documentOf strayDocument = .ok d := ⟨_, rfl⟩
  obtain ⟨d', hd'⟩ : ∃ d, documentOf familyDocument = .ok d := ⟨_, rfl⟩
  refine ⟨hstray, ⟨d, hd, (met_of_schemaOf hd).1 _ hstray⟩, ⟨d', hd', ?_⟩, ?_⟩
  · exact ((met_of_schemaOf hd').2.2.2 _ hfamily).1
  · have hkept : documentOf keptDocument = .ok { paths := [("/pets", .item { operations := [(.get,
        { responses := [(.code 404, .reference "#/components/responses/Lost"), (.code 200, .item
          { content := [("application/json", some keptResponse)] })] })] })] } := rfl
    obtain ⟨schema, hschema⟩ : ∃ schema, schemaOf keptDocument = .ok schema := ⟨_, rfl⟩
    have hresolves := ((met_of_schemaOf hkept).2.2.2 schema hschema).1
    have hlost : Components.Dangles {} .responses "#/components/responses/Lost" := fun _ _ => rfl
    have hmaker : Components.Dangles {} .schemas "#/components/schemas/Maker" := fun _ _ => rfl
    refine ⟨schema, _, hschema, hkept, ⟨_, List.mem_singleton_self _, List.mem_cons_self ..⟩, hlost,
      hmaker, fun h => hlost.not_resolves (hresolves _ _ h), fun h =>
        hmaker.not_resolves (hresolves _ _ h)⟩

end ApiGraph.Generation
