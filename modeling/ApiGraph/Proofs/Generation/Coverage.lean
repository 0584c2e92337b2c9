import ApiGraph.Proofs.Generation.Collisions
import ApiGraph.Proofs.Generation.Registry

/-!
# What is worked on without a fault

When a type is made without a fault, no names fold together inside its schema.  Components are the
difficulty: the type of one may be assigned and still be under construction, so a schema that refers
to it says nothing about what stands in it.  Therefore two things are kept apart.  `Covered` says
that all is well inside a schema provided that it is in some known components, and `Grown` says of
the components that were assigned on the way that all is well in them, provided that it is in those
that are assigned at the end.  When all work is done these are the same components, and nothing is
left that could fold (`not_foldsInside_of_covered`).

* `Makes.grown`: every rule adds to the registry in this way.
* `MakesFields.covered`: when the roots are made, everything that belongs to the endpoints is
  covered, and all components that have types have been worked on.
* `MakesFields.distinct`: the roots that are made have distinct fields, and so have the types.
-/

namespace ApiGraph.Generation

open ApiGraph.GraphQL hiding Schema
open ApiGraph.OpenApi (RefOr Schema SchemaKind Components Endpoint EndpointParameter EndpointBody)

variable {s : Setting}

/-! ## Schemas without collisions -/

/-- Everything inside the schema is free of collisions, provided that the components in `known`
are. -/
inductive Covered (s : Setting) (known : String → Prop) : RefOr Schema → Prop
  | leaf {a : RefOr Schema} {component : Option String} {resolved : Schema}
      (hresolve : s.resolve a = .ok (component, resolved))
      (hkind : (scalarName? resolved.kind).isSome = true ∨ isShapeless resolved.kind = true) :
      Covered s known a
  | array {a items : RefOr Schema} {component : Option String} {resolved : Schema}
      (hresolve : s.resolve a = .ok (component, resolved))
      (hkind : resolved.kind = .array (some items)) (hitems : Covered s known items) :
      Covered s known a
  | component {a : RefOr Schema} {name : String} {resolved : Schema}
      {properties : List (String × RefOr Schema)} {required : List String}
      (hresolve : s.resolve a = .ok (some name, resolved))
      (hkind : resolved.kind = .object properties required) (hknown : known name) :
      Covered s known a
  | inlined {a : RefOr Schema} {resolved : Schema} {properties : List (String × RefOr Schema)}
      {required : List String} (hresolve : s.resolve a = .ok (none, resolved))
      (hkind : resolved.kind = .object properties required)
      (hresolves : ∀ p ∈ properties, ∃ found, s.resolve p.2 = .ok found)
      (hnodup : (s.memberNames properties).Nodup)
      (hmembers : ∀ p ∈ s.visible properties, Covered s known p.2) : Covered s known a

theorem Covered.mono {known known' : String → Prop} (h : ∀ name, known name → known' name)
    {a : RefOr Schema} (hcovered : Covered s known a) : Covered s known' a := by
  induction hcovered with
  | leaf hresolve hkind => exact .leaf hresolve hkind
  | array hresolve hkind _ ih => exact .array hresolve hkind ih
  | component hresolve hkind hknown => exact .component hresolve hkind (h _ hknown)
  | inlined hresolve hkind hresolves hnodup _ ih =>
    exact .inlined hresolve hkind hresolves hnodup ih

/-- The same for the component itself, which has been worked on. -/
def ComponentCovered (s : Setting) (known : String → Prop) (name : String) : Prop :=
  ∀ a resolved properties required, s.resolve a = .ok (some name, resolved) →
    resolved.kind = .object properties required →
      (s.memberNames properties).Nodup ∧ ∀ p ∈ s.visible properties, Covered s known p.2

theorem ComponentCovered.mono {known known' : String → Prop}
    (h : ∀ name, known name → known' name) {name : String}
    (hcovered : ComponentCovered s known name) : ComponentCovered s known' name := by
  intro a resolved properties required hresolve hkind
  obtain ⟨hnodup, hmembers⟩ := hcovered a resolved properties required hresolve hkind
  exact ⟨hnodup, fun p hp => (hmembers p hp).mono h⟩

theorem array_of_covered {known : String → Prop} {a items : RefOr Schema}
    {component : Option String} {resolved : Schema} (hcovered : Covered s known a)
    (hresolve : s.resolve a = .ok (component, resolved))
    (hkind : resolved.kind = .array (some items)) : Covered s known items := by
  cases hcovered with
  | leaf hresolve' hkind' =>
    obtain ⟨-, rfl⟩ := Prod.mk.inj (Except.ok.inj (hresolve.symm.trans hresolve'))
    rw [hkind] at hkind'
    exact absurd hkind' (by simp [scalarName?, isShapeless])
  | array hresolve' hkind' hitems =>
    obtain ⟨-, rfl⟩ := Prod.mk.inj (Except.ok.inj (hresolve.symm.trans hresolve'))
    rw [hkind] at hkind'
    obtain rfl := Option.some.inj (SchemaKind.array.inj hkind')
    exact hitems
  | component hresolve' hkind' =>
    obtain ⟨-, rfl⟩ := Prod.mk.inj (Except.ok.inj (hresolve.symm.trans hresolve'))
    exact nomatch hkind.symm.trans hkind'
  | inlined hresolve' hkind' =>
    obtain ⟨-, rfl⟩ := Prod.mk.inj (Except.ok.inj (hresolve.symm.trans hresolve'))
    exact nomatch hkind.symm.trans hkind'

theorem object_of_covered {known : String → Prop}
    (hknown : ∀ name, known name → ComponentCovered s known name) {a : RefOr Schema}
    {component : Option String} {resolved : Schema} {properties : List (String × RefOr Schema)}
    {required : List String} (hcovered : Covered s known a)
    (hresolve : s.resolve a = .ok (component, resolved))
    (hkind : resolved.kind = .object properties required) :
    (s.memberNames properties).Nodup ∧ ∀ p ∈ s.visible properties, Covered s known p.2 := by
  cases hcovered with
  | leaf hresolve' hkind' =>
    obtain ⟨-, rfl⟩ := Prod.mk.inj (Except.ok.inj (hresolve.symm.trans hresolve'))
    rw [hkind] at hkind'
    rcases hkind' with hkind' | hkind'
    · exact absurd hkind' (by simp [scalarName?])
    · rw [List.isEmpty_iff.mp hkind']
      exact ⟨List.nodup_nil, fun p hp => absurd hp List.not_mem_nil⟩
  | array hresolve' hkind' =>
    obtain ⟨-, rfl⟩ := Prod.mk.inj (Except.ok.inj (hresolve.symm.trans hresolve'))
    exact nomatch hkind.symm.trans hkind'
  | component hresolve' _ hassigned =>
    obtain ⟨rfl, rfl⟩ := Prod.mk.inj (Except.ok.inj (hresolve.symm.trans hresolve'))
    exact hknown _ hassigned a _ properties required hresolve hkind
  | inlined hresolve' hkind' _ hnodup hmembers =>
    obtain ⟨-, rfl⟩ := Prod.mk.inj (Except.ok.inj (hresolve.symm.trans hresolve'))
    obtain ⟨rfl, -⟩ := SchemaKind.object.inj (hkind.symm.trans hkind')
    exact ⟨hnodup, hmembers⟩

/-- If all known components have been worked on, everything inside the schema is covered. -/
theorem covered_of_inside {known : String → Prop}
    (hknown : ∀ name, known name → ComponentCovered s known name) {a b : RefOr Schema}
    (hinside : Inside s a b) (hcovered : Covered s known a) : Covered s known b := by
  induction hinside with
  | refl a => exact hcovered
  | item hresolve hkind _ ih => exact ih (array_of_covered hcovered hresolve hkind)
  | member hresolve hkind hp _ ih =>
    exact ih ((object_of_covered hknown hcovered hresolve hkind).2 _ hp)

/-- If all known components have been worked on, there are no collisions. -/
theorem not_foldsInside_of_covered {known : String → Prop}
    (hknown : ∀ name, known name → ComponentCovered s known name) {a : RefOr Schema}
    (hcovered : Covered s known a) : ¬ FoldsInside s a := by
  rintro ⟨b, hinside, component, resolved, properties, required, hresolve, hkind, hnodup⟩
  have hinner := covered_of_inside hknown hinside hcovered
  exact hnodup (object_of_covered hknown hinner hresolve hkind).1

/-! ## What has been worked on -/

/-- Between the registries, components were assigned and worked on. -/
structure Grown (c : Components) (r r' : Registry) : Prop where
  has : ∀ position component, r.Has position component → r'.Has position component
  covered : ∀ position component, r'.Has position component →
    r.Has position component ∨ ComponentCovered ⟨c, position⟩ (r'.Has position) component

theorem Grown.refl (c : Components) (r : Registry) : Grown c r r :=
  ⟨fun _ _ h => h, fun _ _ h => Or.inl h⟩

theorem Grown.trans {c : Components} {r r₁ r' : Registry} (h : Grown c r r₁) (h' : Grown c r₁ r') :
    Grown c r r' := by
  refine ⟨fun position component hhas => h'.has _ _ (h.has _ _ hhas),
    fun position component hhas => ?_⟩
  rcases h'.covered position component hhas with hhas | hcovered
  · exact (h.covered position component hhas).imp_right fun hcovered =>
      hcovered.mono (h'.has position)
  · exact Or.inr hcovered

/-- Registries in which the same components have types. -/
theorem Grown.of_has_iff {c : Components} {r r' : Registry}
    (h : ∀ position component, r'.Has position component ↔ r.Has position component) :
    Grown c r r' :=
  ⟨fun position component => (h position component).mpr,
    fun position component hhas => Or.inl ((h position component).mp hhas)⟩

/-- Does the schema refer to the component? -/
def Setting.RefersTo (s : Setting) (a : RefOr Schema) (name : String) : Prop :=
  ∃ resolved, s.resolve a = .ok (some name, resolved)

/-- What a component is depends on its name alone. -/
theorem get?_schemas_of_resolve {a : RefOr Schema} {name : String} {resolved : Schema}
    (h : s.resolve a = .ok (some name, resolved)) :
    s.components.schemas.get? name = some (.item resolved) := by
  have hfound := mapError_eq_ok.mp h
  cases a with
  | item value => exact nomatch hfound
  | reference target =>
    obtain ⟨⟨name', value⟩, hlookUp, heq⟩ := map_eq_ok.mp hfound
    obtain ⟨hname, rfl⟩ := Prod.mk.inj heq
    obtain rfl := Option.some.inj hname
    unfold OpenApi.Components.schema OpenApi.lookUp at hlookUp
    split at hlookUp
    · exact nomatch hlookUp
    · split at hlookUp
      · exact nomatch hlookUp
      · exact nomatch hlookUp
      · rename_i hget
        obtain ⟨rfl, rfl⟩ := Prod.mk.inj (Except.ok.inj hlookUp)
        exact hget

/-- All references to a component come to the same. -/
theorem resolve_eq_of_refersTo {a b : RefOr Schema} {name : String} (ha : s.RefersTo a name)
    (hb : s.RefersTo b name) : s.resolve a = s.resolve b := by
  obtain ⟨value, hresolve⟩ := ha
  obtain ⟨value', hresolve'⟩ := hb
  have hget := (get?_schemas_of_resolve hresolve).symm.trans (get?_schemas_of_resolve hresolve')
  obtain rfl := OpenApi.RefOr.item.inj (Option.some.inj hget)
  exact hresolve.trans hresolve'.symm

/-- The name of a component settles which object it is. -/
theorem object_eq_of_resolve {a b : RefOr Schema} {name : String} {resolved resolved' : Schema}
    {properties properties' : List (String × RefOr Schema)} {required required' : List String}
    (ha : s.resolve a = .ok (some name, resolved))
    (hkind : resolved.kind = .object properties required)
    (hb : s.resolve b = .ok (some name, resolved'))
    (hkind' : resolved'.kind = .object properties' required') :
    properties' = properties ∧ required' = required := by
  have hsame := resolve_eq_of_refersTo ⟨_, ha⟩ ⟨_, hb⟩
  rw [ha, hb] at hsame
  obtain ⟨-, rfl⟩ := Prod.mk.inj (Except.ok.inj hsame)
  exact SchemaKind.object.inj (hkind'.symm.trans hkind)

/-- All properties can be followed, those that are left out too. -/
theorem MakesMembers.resolves {owner : String} {required : List String}
    {members members' : List InputValue} {properties : List (String × RefOr Schema)}
    {r r' : Registry}
    (hmakes : MakesMembers s owner required members properties r members' r') :
    ∀ p ∈ properties, ∃ found, s.resolve p.2 = .ok found :=
  match hmakes with
  | .nil => fun _ hp => absurd hp List.not_mem_nil
  | .hidden hresolve _ hrest => List.forall_mem_cons.mpr ⟨⟨_, hresolve⟩, hrest.resolves⟩
  | .shown hresolve _ _ _ hrest => List.forall_mem_cons.mpr ⟨⟨_, hresolve⟩, hrest.resolves⟩

/-- The type of an object, from its beginning to its end. -/
theorem grown_of_object {component : Option String} {base : String} {r r₂ : Registry}
    {t : Composite} {a : RefOr Schema} {resolved : Schema}
    {properties : List (String × RefOr Schema)} {required : List String}
    (hresolve : s.resolve a = .ok (component, resolved))
    (hkind : resolved.kind = .object properties required)
    (hresolves : ∀ p ∈ properties, ∃ found, s.resolve p.2 = .ok found)
    (hgrown : Grown s.components (beginObject s component base r).2 r₂)
    (hnodup : (s.memberNames properties).Nodup)
    (hmembers : ∀ p ∈ s.visible properties, Covered s (r₂.Has s.position) p.2) :
    Grown s.components r (endObject s component t r₂).2 ∧
      Covered s ((endObject s component t r₂).2.Has s.position) a := by
  have hbegun : ∀ name, component = some name → r₂.Has s.position name := fun name hname =>
    hgrown.has _ _ (has_beginObject.mpr (Or.inl ⟨rfl, hname⟩))
  have hend : ∀ position name,
      (endObject s component t r₂).2.Has position name ↔ r₂.Has position name :=
    fun position name => has_endObject (hbegun name)
  have hcovered : ∀ p ∈ s.visible properties,
      Covered s ((endObject s component t r₂).2.Has s.position) p.2 :=
    fun p hp => (hmembers p hp).mono fun name => (hend s.position name).mpr
  refine ⟨⟨fun position name hhas => ?_, fun position name hhas => ?_⟩, ?_⟩
  · rw [hend]
    exact hgrown.has position name (has_beginObject.mpr (Or.inr hhas))
  · rw [hend] at hhas
    rcases hgrown.covered position name hhas with hhas | hdone
    · rcases has_beginObject.mp hhas with ⟨rfl, rfl⟩ | hhas
      · -- The component of the object itself: its name settles which object that is.
        refine Or.inr fun a' resolved' properties' required' hresolve' hkind' => ?_
        obtain ⟨rfl, -⟩ := object_eq_of_resolve hresolve hkind hresolve' hkind'
        exact ⟨hnodup, hcovered⟩
      · exact Or.inl hhas
    · exact Or.inr (hdone.mono fun name => (hend position name).mpr)
  · cases component with
    | none => exact .inlined hresolve hkind hresolves hnodup hcovered
    | some name => exact .component hresolve hkind ((hend s.position name).mpr (hbegun name rfl))

mutual

theorem Makes.grown {schema : RefOr Schema} {hint : String} {r r' : Registry} {type : TypeRef}
    (hmakes : Makes s schema hint r type r') :
    Grown s.components r r' ∧ Covered s (r'.Has s.position) schema :=
  match hmakes with
  | .scalar hresolve hkind =>
    ⟨.refl _ _, .leaf hresolve (Or.inl (Option.isSome_of_eq_some hkind))⟩
  | .json hresolve hkind => ⟨.of_has_iff fun _ _ => Iff.rfl, .leaf hresolve (Or.inr hkind)⟩
  | .array hresolve hkind hitem _ => ⟨hitem.grown.1, .array hresolve hkind hitem.grown.2⟩
  | .known hresolve hkind hknown =>
    ⟨.refl _ _, .component hresolve hkind (Option.isSome_of_eq_some hknown)⟩
  | .new hresolve hkind _ hmembers => by
    obtain ⟨hgrown, hnames, hcovered⟩ := hmembers.grown
    have hnodup := hnames List.nodup_nil
    exact grown_of_object hresolve hkind hmembers.resolves hgrown hnodup hcovered

theorem MakesMembers.grown {owner : String} {required : List String}
    {members members' : List InputValue} {properties : List (String × RefOr Schema)}
    {r r' : Registry}
    (hmakes : MakesMembers s owner required members properties r members' r') :
    Grown s.components r r' ∧
      ((members.map (·.name)).Nodup →
        (members.map (·.name) ++ s.memberNames properties).Nodup) ∧
      ∀ p ∈ s.visible properties, Covered s (r'.Has s.position) p.2 :=
  match hmakes with
  | .nil => by
    rw [Setting.memberNames]
    exact ⟨.refl _ _, fun h => (List.append_nil _).symm ▸ h, fun p hp => absurd hp List.not_mem_nil⟩
  | .hidden hresolve hhides hrest => by
    have hshows := shows_of_resolve hresolve
    rw [hhides] at hshows
    rw [Setting.memberNames, visible_cons, hshows]
    exact hrest.grown
  | .shown hresolve hhides hmember hname hrest => by
    have hshows := shows_of_resolve hresolve
    rw [hhides] at hshows
    rw [Setting.memberNames, visible_cons, hshows]
    obtain ⟨hgrown, hcovered⟩ := hmember.grown
    obtain ⟨hgrown', hnames, hrestCovered⟩ := hrest.grown
    refine ⟨hgrown.trans hgrown', fun hnodup => ?_, fun p hp => ?_⟩
    · have hadded := List.Nodup.append hnodup (List.nodup_singleton _)
        (List.disjoint_singleton.mpr hname)
      rw [List.map_append, List.append_assoc] at hnames
      exact hnames hadded
    · rcases List.mem_cons.mp hp with rfl | hp
      · exact hcovered.mono (hgrown'.has s.position)
      · exact hrestCovered p hp

end

/-! ## Roots -/

variable {c : Components} {r r' : Registry}

/-- All components with types have been worked on. -/
def Settled (c : Components) (r : Registry) : Prop :=
  ∀ position component, r.Has position component →
    ComponentCovered ⟨c, position⟩ (r.Has position) component

theorem settled_start (c : Components) (components : List String) :
    Settled c (.start components) := by
  intro position component h
  exact nomatch h

theorem Settled.grown (h : Settled c r) (hgrown : Grown c r r') : Settled c r' := by
  intro position component hhas
  rcases hgrown.covered position component hhas with hhas | hdone
  · exact (h position component hhas).mono (hgrown.has position)
  · exact hdone

theorem MakesOptional.grown {position : Position} {schema : Option (RefOr Schema)} {hint : String}
    {type : TypeRef} (hmakes : MakesOptional c position schema hint r type r') :
    Grown c r r' ∧ ∀ a ∈ schema, Covered ⟨c, position⟩ (r'.Has position) a := by
  cases hmakes with
  | none => exact ⟨.refl c r, fun a ha => nomatch ha⟩
  | some hmakes =>
    obtain ⟨hgrown, hcovered⟩ := hmakes.grown
    refine ⟨hgrown, fun a ha => ?_⟩
    rw [← Option.some.inj ha]
    exact hcovered

theorem MakesArguments.grown {base : String} {ps : List EndpointParameter}
    {arguments arguments' : List InputValue}
    (hmakes : MakesArguments c base arguments ps r arguments' r') :
    Grown c r r' ∧ ∀ p ∈ ps, ∀ a ∈ p.schema, Covered ⟨c, .input⟩ (r'.Has .input) a := by
  induction hmakes with
  | nil => exact ⟨.refl c _, fun p hp => absurd hp List.not_mem_nil⟩
  | cons htype _ _ ih =>
    obtain ⟨hgrown, hfirst⟩ := htype.grown
    obtain ⟨hgrown', hrest⟩ := ih
    refine ⟨hgrown.trans hgrown', List.forall_mem_cons.mpr ⟨fun a ha => ?_, hrest⟩⟩
    exact (hfirst a ha).mono (hgrown'.has .input)

theorem MakesBody.grown {base : String} {body : Option EndpointBody}
    {arguments arguments' : List InputValue}
    (hmakes : MakesBody c base arguments body r arguments' r') :
    Grown c r r' ∧ ∀ b ∈ body, Covered ⟨c, .input⟩ (r'.Has .input) b.schema := by
  cases hmakes with
  | none => exact ⟨.refl c r, fun b hb => nomatch hb⟩
  | some _ htype _ =>
    obtain ⟨hgrown, hcovered⟩ := htype.grown
    refine ⟨hgrown, fun b hb => ?_⟩
    rw [← Option.some.inj hb]
    exact hcovered

/-- All schemas of the endpoint are covered by the components that have types. -/
def EndpointCovered (c : Components) (r : Registry) (e : Endpoint) : Prop :=
  ∀ position a, WorksOn e position a → Covered ⟨c, position⟩ (r.Has position) a

theorem EndpointCovered.grown {e : Endpoint} (h : EndpointCovered c r e) (hgrown : Grown c r r') :
    EndpointCovered c r' e :=
  fun position a hworks => (h position a hworks).mono (hgrown.has position)

theorem MakesField.grown {e : Endpoint} {f : Field} (hmakes : MakesField c e r f r') :
    Grown c r r' ∧ EndpointCovered c r' e := by
  obtain ⟨htype, harguments, hbody⟩ := hmakes
  obtain ⟨hgrown₁, hresponse⟩ := htype.grown
  obtain ⟨hgrown₂, hparameters⟩ := harguments.grown
  obtain ⟨hgrown₃, hbodies⟩ := hbody.grown
  refine ⟨hgrown₁.trans (hgrown₂.trans hgrown₃), fun position a hworks => ?_⟩
  cases hworks with
  | response ha => exact (hresponse a ha).mono ((hgrown₂.trans hgrown₃).has .output)
  | parameter hp ha => exact (hparameters _ hp a ha).mono (hgrown₃.has .input)
  | body hb => exact hbodies _ hb

theorem MakesFields.grown {endpoints : List Endpoint} {roots roots' : Roots}
    (hmakes : MakesFields c roots endpoints r roots' r') :
    Grown c r r' ∧ ∀ e ∈ endpoints, EndpointCovered c r' e := by
  induction hmakes with
  | nil => exact ⟨.refl c _, fun e he => absurd he List.not_mem_nil⟩
  | cons hfield _ _ ih =>
    obtain ⟨hgrown, hfirst⟩ := hfield.grown
    obtain ⟨hgrown', hrest⟩ := ih
    exact ⟨hgrown.trans hgrown', List.forall_mem_cons.mpr ⟨hfirst.grown hgrown', hrest⟩⟩

/-- When the roots are made, all components with types have been worked on, and so has everything
else that belongs to the endpoints. -/
theorem MakesFields.covered {components : List String} {endpoints : List Endpoint} {roots : Roots}
    (hmakes : MakesFields c {} endpoints (.start components) roots r) :
    Settled c r ∧ ∀ e ∈ endpoints, EndpointCovered c r e := by
  obtain ⟨hgrown, hcovered⟩ := hmakes.grown
  exact ⟨(settled_start c components).grown hgrown, hcovered⟩

theorem not_endpointFolds_of_covered {e : Endpoint} (h : Settled c r)
    (hcovered : EndpointCovered c r e) : ¬ EndpointFolds c e := by
  intro hfolds
  obtain ⟨position, a, hworks, hfolds⟩ := worksOn_of_endpointFolds hfolds
  exact not_foldsInside_of_covered (h position) (hcovered position a hworks) hfolds

/-- No two fields of a root have the same name. -/
def Roots.Nodup (roots : Roots) : Prop :=
  (roots.query.map (·.name)).Nodup ∧ (roots.mutation.map (·.name)).Nodup

theorem Roots.Nodup.push {roots : Roots} (h : roots.Nodup) {e : Endpoint} {f : Field}
    (hf : f.name ∉ (roots.fieldsFor e).map (·.name)) : (roots.push e f).Nodup := by
  unfold Roots.fieldsFor at hf
  unfold Roots.push
  split
  · rename_i he
    rw [if_pos he] at hf
    exact ⟨nodup_map_append_singleton h.1 hf, h.2⟩
  · rename_i he
    rw [if_neg he] at hf
    exact ⟨h.1, nodup_map_append_singleton h.2 hf⟩

theorem MakesFields.nodup {endpoints : List Endpoint} {roots roots' : Roots}
    (hmakes : MakesFields c roots endpoints r roots' r') (h : roots.Nodup) : roots'.Nodup := by
  induction hmakes with
  | nil => exact h
  | cons _ hname _ ih => exact ih (h.push hname)

theorem fieldNames_of_names {fields : List Field} {endpoints : List Endpoint}
    (h : fields.map fieldNames = endpoints.map (endpointNames c)) :
    fields.map (·.name) = endpoints.map (·.fieldName) := by
  have hfirst := congrArg (List.map Prod.fst) h
  rw [List.map_map, List.map_map] at hfirst
  exact hfirst

/-- When the roots are made, no two fields of a type have the same name. -/
theorem MakesFields.distinct {components : List String} {endpoints : List Endpoint} {roots : Roots}
    (hmakes : MakesFields c {} endpoints (.start components) roots r) : Distinct c endpoints := by
  obtain ⟨hquery, hmutation⟩ := names_of_makesFields hmakes
  obtain ⟨hqueries, hmutations⟩ := hmakes.nodup ⟨List.nodup_nil, List.nodup_nil⟩
  rw [fieldNames_of_names hquery] at hqueries
  rw [fieldNames_of_names hmutation] at hmutations
  obtain ⟨hsettled, hcovered⟩ := hmakes.covered
  exact ⟨fun e he => not_endpointFolds_of_covered hsettled (hcovered e he), hqueries, hmutations⟩

end ApiGraph.Generation
