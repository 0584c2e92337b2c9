import ApiGraph.Proofs.Generation.Closed

/-!
# The shape of types

A schema has an outline, which is the same in both positions: a scalar, no known shape, an object
with properties, or a list of an outline (`Outlines`).  The type that is made for the schema follows
its outline.  Only for an object does it depend on the position: it is a registered type if one of
the properties can be seen there, and `JSON` if none can (`FitsObject`).

A component that has a type already may be under construction.  Then one of its properties is being
made, so there is one that can be seen, and the type that was begun is the one that it keeps.  That
is why the types of components fit whenever a type is made (`Reachable`), not only when a run is
over.

* `Reachable.shaped`: at such a moment the type of every component fits its properties.
* `outline_of_typeOf`: a type that is made fits the outline of its schema.
* `outline_litter`: a list of a component under construction, and objects that can only be written.
-/

namespace ApiGraph.Generation

open ApiGraph.GraphQL hiding Schema
open ApiGraph.OpenApi (RefOr Schema SchemaKind Components Endpoint EndpointParameter EndpointBody)

/-! ## Outlines -/

/-- What a schema looks like, whatever the position. -/
inductive Outline where
  | scalar (name : String)
  /-- Values of the schema have no known shape. -/
  | shapeless
  | object (properties : List (String × RefOr Schema))
  /-- The items of a list may be required not to be null. -/
  | list (item : Outline) (required : Bool)

/-- The outline of values of the kind, unless they are arrays. -/
def kindOutline? : SchemaKind Schema → Option Outline
  | .string => some (.scalar "String")
  | .integer => some (.scalar "Int")
  | .number => some (.scalar "Float")
  | .boolean => some (.scalar "Boolean")
  | .object properties _ => some (if properties.isEmpty then .shapeless else .object properties)
  | .any => some .shapeless
  | .array _ => none

/-- The schema has the outline. -/
inductive Outlines (c : Components) : RefOr Schema → Outline → Prop
  | single {a : RefOr Schema} {component : Option String} {resolved : Schema} {o : Outline}
      (hresolve : c.resolve a = .ok (component, resolved))
      (hkind : kindOutline? resolved.kind = some o) : Outlines c a o
  | list {a items : RefOr Schema} {component itemComponent : Option String}
      {resolved resolvedItem : Schema} {item : Outline}
      (hresolve : c.resolve a = .ok (component, resolved))
      (hkind : resolved.kind = .array (some items))
      (hitems : c.resolve items = .ok (itemComponent, resolvedItem))
      (hitem : Outlines c items item) : Outlines c a (.list item !resolvedItem.data.nullable)

/-- In the position the type is one for an object with the properties. -/
inductive FitsObject (s : Setting) (r : Registry) (properties : List (String × RefOr Schema)) :
    TypeRef → Prop
  /-- No property can be seen. -/
  | hidden (hvisible : s.visible properties = []) : FitsObject s r properties jsonType
  | shown {name : String} {e : Option Composite} (hvisible : s.visible properties ≠ [])
      (hregistered : r.registered? s.position name = some e) (hjson : name ≠ jsonName) :
      FitsObject s r properties (.named name)

/-- In the position the type follows the outline. -/
def Fits (s : Setting) (r : Registry) : Outline → TypeRef → Prop
  | .scalar name, type => type = .named name
  | .shapeless, type => type = jsonType
  | .object properties, type => FitsObject s r properties type
  | .list item required, type =>
    ∃ inner, Fits s r item inner ∧ type = .list (if required then .nonNull inner else inner)

/-- Null is never excluded from a type that excludes it already. -/
def ExcludesOnce : TypeRef → Prop
  | .named _ => True
  | .list item => ExcludesOnce item
  | .nonNull inner => ExcludesOnce inner ∧ inner.excludesNull = false

/-- The type with another name at the bottom. -/
def withLeaf (name : String) : TypeRef → TypeRef
  | .named _ => .named name
  | .list item => .list (withLeaf name item)
  | .nonNull inner => .nonNull (withLeaf name inner)

variable {c : Components} {s : Setting} {r r' : Registry} {a : RefOr Schema} {type : TypeRef}

theorem Outlines.unique {o o' : Outline} (h : Outlines c a o) (h' : Outlines c a o') : o' = o := by
  induction h generalizing o' with
  | single hresolve hkind =>
    cases h' with
    | single hresolve' hkind' =>
      obtain ⟨-, rfl⟩ := Prod.mk.inj (Except.ok.inj (hresolve.symm.trans hresolve'))
      exact Option.some.inj (hkind'.symm.trans hkind)
    | list hresolve' hkind' =>
      obtain ⟨-, rfl⟩ := Prod.mk.inj (Except.ok.inj (hresolve.symm.trans hresolve'))
      rw [hkind'] at hkind
      exact nomatch hkind
  | list hresolve hkind hitems _ ih =>
    cases h' with
    | single hresolve' hkind' =>
      obtain ⟨-, rfl⟩ := Prod.mk.inj (Except.ok.inj (hresolve.symm.trans hresolve'))
      rw [hkind] at hkind'
      exact nomatch hkind'
    | list hresolve' hkind' hitems' hitem' =>
      obtain ⟨-, rfl⟩ := Prod.mk.inj (Except.ok.inj (hresolve.symm.trans hresolve'))
      obtain rfl := Option.some.inj (SchemaKind.array.inj (hkind.symm.trans hkind'))
      obtain ⟨-, rfl⟩ := Prod.mk.inj (Except.ok.inj (hitems.symm.trans hitems'))
      rw [ih hitem']

theorem kindOutline?_of_scalarName? {kind : SchemaKind Schema} {name : String}
    (h : scalarName? kind = some name) : kindOutline? kind = some (.scalar name) := by
  cases kind with
  | string | integer | number | boolean =>
    obtain rfl := Option.some.inj h
    rfl
  | array _ | object _ _ | any => exact nomatch h

theorem kindOutline?_of_isShapeless {kind : SchemaKind Schema} (h : isShapeless kind = true) :
    kindOutline? kind = some .shapeless := by
  cases kind with
  | any => rfl
  | object properties _ => exact congrArg some (if_pos h)
  | string | integer | number | boolean | array _ => exact nomatch h

/-! ## Types that fit -/

theorem FitsObject.nullable {properties : List (String × RefOr Schema)}
    (h : FitsObject s r properties type) : type.excludesNull = false := by
  cases h with
  | hidden => rfl
  | shown => rfl

/-- Whether null is excluded is decided where the type is used. -/
theorem Fits.nullable {o : Outline} (h : Fits s r o type) : type.excludesNull = false := by
  cases o with
  | scalar name => exact h ▸ rfl
  | shapeless => exact h ▸ rfl
  | object properties => exact FitsObject.nullable h
  | list item required =>
    obtain ⟨inner, -, rfl⟩ := h
    rfl

theorem excludeNullIf_of_nullable {condition : Bool} (h : type.excludesNull = false) :
    type.excludeNullIf condition = if condition then .nonNull type else type := by
  cases type with
  | nonNull inner => exact nomatch h
  | named name => rfl
  | list item => rfl

theorem Fits.excludesOnce {o : Outline} (h : Fits s r o type) : ExcludesOnce type := by
  induction o generalizing type with
  | scalar name => exact h ▸ trivial
  | shapeless => exact h ▸ trivial
  | object properties =>
    cases h with
    | hidden => trivial
    | shown => trivial
  | list item required ih =>
    obtain ⟨inner, hinner, rfl⟩ := h
    have hitem : ExcludesOnce inner := ih hinner
    cases required with
    | true => exact ⟨hitem, hinner.nullable⟩
    | false => exact hitem

/-- Types with one outline are the same up to the name at the bottom. -/
theorem Fits.withLeaf_eq {s' : Setting} {type' : TypeRef} {o : Outline} (h : Fits s r o type)
    (h' : Fits s' r' o type') : withLeaf type.leaf type' = type := by
  induction o generalizing type type' with
  | scalar name => rw [show type = .named name from h, show type' = .named name from h']; rfl
  | shapeless => rw [show type = jsonType from h, show type' = jsonType from h']; rfl
  | object properties =>
    cases h with
    | hidden => cases h' <;> rfl
    | shown => cases h' <;> rfl
  | list item required ih =>
    obtain ⟨inner, hinner, rfl⟩ := h
    obtain ⟨inner', hinner', rfl⟩ := h'
    have hitem : withLeaf inner.leaf inner' = inner := ih hinner hinner'
    cases required with
    | true => exact congrArg (fun t => TypeRef.list (.nonNull t)) hitem
    | false => exact congrArg TypeRef.list hitem

theorem FitsObject.mono {properties : List (String × RefOr Schema)}
    (h : FitsObject s r properties type) (hextends : r.Extends r') (hwell : r.WellNamed) :
    FitsObject s r' properties type := by
  cases h with
  | hidden hvisible => exact .hidden hvisible
  | shown hvisible hregistered hjson =>
    have htaken := hwell.mem_taken hregistered
    exact .shown hvisible ((hextends.registered _ _ htaken).trans hregistered) hjson

/-! ## Components that fit -/

/-- The type fits the properties of the component. -/
def ComponentFits (s : Setting) (r : Registry) (name : String) (type : TypeRef) : Prop :=
  ∀ a resolved properties required, s.resolve a = .ok (some name, resolved) →
    resolved.kind = .object properties required → FitsObject s r properties type

/-- The types of all components fit, of those under construction too. -/
structure Registry.Shaped (c : Components) (r : Registry) : Prop where
  wellNamed : r.WellNamed
  json_taken : jsonName ∈ r.names.taken
  not_registered_json : ∀ position, r.registered? position jsonName = none
  assigned : ∀ position name type, r.assigned? position name = some type →
    ComponentFits ⟨c, position⟩ r name type

theorem Registry.Shaped.start (c : Components) : (Registry.start c.schemas.keys).Shaped c := by
  refine ⟨.start _, ?_, fun position => ?_, fun position name type h => nomatch h⟩
  · exact List.mem_cons_of_mem _ (List.mem_cons_of_mem _ (List.mem_singleton_self jsonName))
  · rw [registered?, types_start]
    rfl

theorem ObjectFor.fitsObject {properties : List (String × RefOr Schema)} {required : List String}
    (h : ObjectFor s r properties required type)
    (hjson : ∀ position, r.registered? position jsonName = none) :
    FitsObject s r properties type := by
  cases h with
  | hidden hvisible => exact .hidden hvisible
  | shown hvisible hregistered =>
    refine .shown hvisible hregistered fun hname => ?_
    rw [hname, hjson] at hregistered
    exact nomatch hregistered

/-- What is built fits: whatever got a type meanwhile is done. -/
theorem Registry.Shaped.of_built {uses : Position → String → Prop} (h : r.Shaped c)
    (hextends : r.Extends r') (hbuilt : Built c uses r r') : r'.Shaped c := by
  have hjson : ∀ position, r'.registered? position jsonName = none := by
    intro position
    rw [hextends.registered position _ h.json_taken, h.not_registered_json]
  refine ⟨hbuilt.wellNamed, hextends.taken _ h.json_taken, hjson, ?_⟩
  intro position name type htype a resolved properties required hresolve hkind
  rcases hbuilt.done position name type htype with hold | hdone
  · exact (h.assigned position name type hold a resolved properties required hresolve hkind).mono
      hextends h.wellNamed
  · exact (hdone a resolved properties required hresolve hkind).fitsObject hjson

theorem exists_outline_of_object {component : Option String} {resolved : Schema}
    {properties : List (String × RefOr Schema)} {required : List String}
    (hresolve : s.resolve a = .ok (component, resolved))
    (hkind : resolved.kind = .object properties required) (hfits : FitsObject s r properties type) :
    ∃ o, Outlines s.components a o ∧ Fits s r o type := by
  have houtline : kindOutline? resolved.kind =
      some (if properties.isEmpty then .shapeless else .object properties) := by
    rw [hkind]
    rfl
  refine ⟨_, .single (mapError_eq_ok.mp hresolve) houtline, ?_⟩
  cases hempty : properties.isEmpty with
  | true =>
    obtain rfl := List.isEmpty_iff.mp hempty
    cases hfits with
    | hidden => rfl
    | shown hvisible => exact absurd rfl hvisible
  | false => exact hfits

theorem exists_outline_of_array {items : RefOr Schema} {component itemComponent : Option String}
    {resolved resolvedItem : Schema} {item : TypeRef}
    (hresolve : s.resolve a = .ok (component, resolved))
    (hkind : resolved.kind = .array (some items))
    (hitems : s.resolve items = .ok (itemComponent, resolvedItem))
    (hitem : ∃ o, Outlines s.components items o ∧ Fits s r o item) :
    ∃ o, Outlines s.components a o ∧
      Fits s r o (.list (item.excludeNullIf !resolvedItem.data.nullable)) := by
  obtain ⟨o, ho, hfits⟩ := hitem
  have houtline := Outlines.list (mapError_eq_ok.mp hresolve) hkind (mapError_eq_ok.mp hitems) ho
  refine ⟨_, houtline, item, hfits, ?_⟩
  rw [excludeNullIf_of_nullable hfits.nullable]

/-- A type for a schema fits its outline. -/
theorem TypeFor.fits {a : RefOr Schema} {type : TypeRef} (h : TypeFor s r a type)
    (hshaped : r.Shaped s.components) : ∃ o, Outlines s.components a o ∧ Fits s r o type :=
  match h with
  | .scalar hresolve hkind =>
    ⟨_, .single (mapError_eq_ok.mp hresolve) (kindOutline?_of_scalarName? hkind), rfl⟩
  | .json hresolve hkind _ =>
    ⟨_, .single (mapError_eq_ok.mp hresolve) (kindOutline?_of_isShapeless hkind), rfl⟩
  | .array hresolve hkind hitem hitems =>
    exists_outline_of_array hresolve hkind hitems (hitem.fits hshaped)
  | .inlined hresolve hkind hobject =>
    exists_outline_of_object hresolve hkind (hobject.fitsObject hshaped.not_registered_json)
  | .component hresolve hkind hassigned =>
    exists_outline_of_object hresolve hkind
      (hshaped.assigned _ _ _ hassigned _ _ _ _ hresolve hkind)

/-! ## Registries at which types are made -/

/-- A type may be begun for an object of which a property can be seen. -/
theorem Registry.Shaped.beginObject {component : Option String} {resolved : Schema}
    {properties : List (String × RefOr Schema)} {required : List String}
    (h : r.Shaped s.components) (base : String)
    (hresolve : s.resolve a = .ok (component, resolved))
    (hkind : resolved.kind = .object properties required)
    (hnew : component.bind (r.assigned? s.position) = none)
    (hvisible : s.visible properties ≠ []) :
    (beginObject s component base r).2.Shaped s.components := by
  have hextends : r.Extends (Generation.beginObject s component base r).2 :=
    extends_beginObject base hnew
  have hname : claimedName s component base r ≠ jsonName := fun heq =>
    not_mem_taken_claimedName s component base r (heq ▸ h.json_taken)
  refine ⟨h.wellNamed.beginObject, hextends.taken _ h.json_taken, fun position => ?_, ?_⟩
  · rw [hextends.registered position _ h.json_taken, h.not_registered_json]
  · intro position name type htype a' resolved' properties' required' hresolve' hkind'
    rw [assigned?_beginObject] at htype
    split at htype
    · rename_i hown
      obtain ⟨rfl, rfl⟩ := hown
      obtain ⟨rfl, -⟩ := object_eq_of_resolve hresolve hkind hresolve' hkind'
      rw [← Option.some.inj htype]
      have hbegun := registered?_claimedName (.refl (Generation.beginObject s (some name) base r).2)
      exact .shown hvisible hbegun hname
    · exact (h.assigned position name type htype a' resolved' properties' required' hresolve'
        hkind').mono hextends h.wellNamed

/-- A registry at a moment of a run at which the type of a schema is made: at the start, when some
type has been made, or inside of an object, when a type has been begun for it and the members before
one that can be seen are there. -/
inductive Reachable (c : Components) : Registry → Prop
  | start : Reachable c (.start c.schemas.keys)
  | made {position : Position} {bound : Nat} {a : RefOr Schema} {hint : String} {r r' : Registry}
      {type : TypeRef} (h : Reachable c r)
      (hmade : typeOf ⟨c, position⟩ bound a hint r = .ok (type, r')) : Reachable c r'
  | inside {position : Position} {bound : Nat} {a : RefOr Schema} {component : Option String}
      {resolved : Schema} {base owner : String} {required : List String}
      {before after : List (String × RefOr Schema)} {p : String × RefOr Schema}
      {members : List InputValue} {r r' : Registry} (h : Reachable c r)
      (hresolve : Setting.resolve ⟨c, position⟩ a = .ok (component, resolved))
      (hkind : resolved.kind = .object (before ++ p :: after) required)
      (hnew : component.bind (r.assigned? position) = none)
      (hbefore : membersOf (typeOf ⟨c, position⟩ bound) ⟨c, position⟩ owner required [] before
        (beginObject ⟨c, position⟩ component base r).2 = .ok (members, r'))
      (hshows : Setting.shows ⟨c, position⟩ p.2 = true) : Reachable c r'

/-- Whenever a type is made, the types of all components fit. -/
theorem Reachable.shaped (h : Reachable c r) : r.Shaped c := by
  induction h with
  | start => exact .start c
  | made _ hmade ih =>
    have hmakes := makes_of_typeOf hmade
    exact ih.of_built hmakes.extends (hmakes.built ih.wellNamed).1
  | @inside position _ _ _ _ base _ _ before after p _ _ _ _ hresolve hkind hnew hbefore hshows
      ih =>
    have hmem : p ∈ Setting.visible ⟨c, position⟩ (before ++ p :: after) :=
      List.mem_filter.mpr ⟨List.mem_append_right _ (List.mem_cons_self ..), hshows⟩
    have hbegun := ih.beginObject (s := ⟨c, position⟩) base hresolve hkind hnew
      (List.ne_nil_of_mem hmem)
    have hmakes := makesMembers_of_membersOf makes_of_typeOf hbefore
    exact hbegun.of_built hmakes.extends (hmakes.built hbegun.wellNamed).1

section Runs

variable {base : String}

theorem Reachable.optionalType {position : Position} {schema : Option (RefOr Schema)}
    {hint : String} (h : Reachable c r)
    (hmade : optionalType c position schema hint r = .ok (type, r')) : Reachable c r' := by
  cases schema with
  | none =>
    obtain ⟨-, rfl⟩ := Prod.mk.inj (Except.ok.inj hmade)
    exact h
  | some schema => exact h.made hmade

theorem Reachable.parameterArguments {field : String} {arguments arguments' : List InputValue}
    {ps : List EndpointParameter} (h : Reachable c r)
    (hmade : parameterArguments c field base arguments ps r = .ok (arguments', r')) :
    Reachable c r' := by
  induction ps generalizing arguments r with
  | nil =>
    obtain ⟨-, rfl⟩ := Prod.mk.inj (Except.ok.inj hmade)
    exact h
  | cons p rest ih =>
    obtain ⟨⟨type, r₁⟩, htype, hmade⟩ := bind_eq_ok.mp hmade
    obtain ⟨_, -, hrest⟩ := bind_eq_ok.mp hmade
    exact ih (h.optionalType htype) hrest

theorem Reachable.bodyArgument {field : String} {arguments arguments' : List InputValue}
    {body : Option EndpointBody} (h : Reachable c r)
    (hmade : bodyArgument c field base arguments body r = .ok (arguments', r')) :
    Reachable c r' := by
  cases body with
  | none =>
    obtain ⟨-, rfl⟩ := Prod.mk.inj (Except.ok.inj hmade)
    exact h
  | some b =>
    obtain ⟨hint, -, hmade⟩ := bind_eq_ok.mp hmade
    obtain ⟨⟨type, r₁⟩, htype, hmade⟩ := bind_eq_ok.mp hmade
    obtain ⟨_, -, hmade⟩ := bind_eq_ok.mp hmade
    obtain ⟨-, rfl⟩ := Prod.mk.inj (Except.ok.inj hmade)
    exact h.made htype

theorem Reachable.endpointField {e : Endpoint} {f : Field} (h : Reachable c r)
    (hmade : endpointField c e r = .ok (f, r')) : Reachable c r' := by
  obtain ⟨⟨type, r₁⟩, htype, hmade⟩ := bind_eq_ok.mp hmade
  obtain ⟨⟨arguments, r₂⟩, harguments, hmade⟩ := bind_eq_ok.mp hmade
  obtain ⟨⟨arguments', r₃⟩, hbody, hmade⟩ := bind_eq_ok.mp hmade
  obtain ⟨-, rfl⟩ := Prod.mk.inj (Except.ok.inj hmade)
  exact ((h.optionalType htype).parameterArguments harguments).bodyArgument hbody

/-- The registries between endpoints are reached. -/
theorem Run.reachable {fields : List Field} (h : Run c fields r) : Reachable c r := by
  induction h with
  | start => exact .start
  | next _ hfield ih => exact ih.endpointField hfield

end Runs

/-! ## Types follow outlines -/

/-- Whenever a type is made for a schema, the schema has an outline, and the type fits it.  Null is
excluded neither at the top nor twice.  And whatever other type is made for the schema, at another
moment and in another position, differs in nothing but the name at the bottom. -/
theorem outline_of_typeOf {position : Position} {bound : Nat} {hint : String} (hr : Reachable c r)
    (h : typeOf ⟨c, position⟩ bound a hint r = .ok (type, r')) :
    ∃ o, (∀ o', Outlines c a o' ↔ o' = o) ∧ Fits ⟨c, position⟩ r' o type ∧
      type.excludesNull = false ∧ ExcludesOnce type ∧
      ∀ position' bound' hint' r₁ r₂ type', Reachable c r₁ →
        typeOf ⟨c, position'⟩ bound' a hint' r₁ = .ok (type', r₂) →
          Fits ⟨c, position'⟩ r₂ o type' ∧ withLeaf type.leaf type' = type := by
  have hall : ∀ {p bound hint r r' type}, Reachable c r →
      typeOf ⟨c, p⟩ bound a hint r = .ok (type, r') →
        ∃ o, Outlines c a o ∧ Fits ⟨c, p⟩ r' o type := by
    intro p bound hint r r' type hr h
    have hfor := ((makes_of_typeOf h).built hr.shaped.wellNamed).2
    exact hfor.fits (hr.made h).shaped
  obtain ⟨o, ho, hfits⟩ := hall hr h
  refine ⟨o, fun o' => ⟨ho.unique, fun heq => heq ▸ ho⟩, hfits, hfits.nullable, hfits.excludesOnce,
    fun p bound' hint' r₁ r₂ type' hr' h' => ?_⟩
  obtain ⟨o', ho', hfits'⟩ := hall hr' h'
  obtain rfl := ho.unique ho'
  exact ⟨hfits', hfits.withLeaf_eq hfits'⟩

def litter : RefOr Schema :=
  .reference "#/components/schemas/Litter"

/-- A pet has a litter; the key to its cage is for the keepers alone. -/
def propertiesOfPet : List (String × RefOr Schema) :=
  [("key", .item (.mk { writeOnly := true } .string)), ("litter", litter)]

/-- A litter is a list of pets. -/
def litterComponents : Components :=
  { schemas := [("Pet", .item (.mk {} (.object propertiesOfPet []))),
      ("Litter", .item (.mk {} (.array (some (.reference "#/components/schemas/Pet")))))] }

/-- The type of pets has been begun, and has no members yet. -/
def litterRegistry : Registry :=
  (beginObject ⟨litterComponents, .output⟩ (some "Pet") "Pet"
    (.start litterComponents.schemas.keys)).2

theorem reachable_litterRegistry : Reachable litterComponents litterRegistry := by
  have hname : OpenApi.componentName? "schemas" "#/components/schemas/Pet" = some "Pet" := by
    decide +kernel
  have hpet : Setting.resolve ⟨litterComponents, .output⟩
      (.reference "#/components/schemas/Pet") =
        .ok (some "Pet", .mk {} (.object propertiesOfPet [])) := by
    simp only [Setting.resolve, Components.resolve, Components.schema, OpenApi.lookUp, hname]
    rfl
  have hshows : Setting.shows ⟨litterComponents, .output⟩ litter = true := by decide +kernel
  have hbefore : membersOf (typeOf ⟨litterComponents, .output⟩ 1) ⟨litterComponents, .output⟩ "Pet"
      [] [] (propertiesOfPet.take 1) litterRegistry = .ok ([], litterRegistry) := rfl
  exact .inside .start hpet rfl rfl hbefore hshows

/-- Cages, of which nothing is known but their keys, for the keepers alone. -/
def cages : RefOr Schema :=
  .item (.mk {} (.array (some (.item (.mk {} (.object
    [("key", .item (.mk { writeOnly := true } .string))] []))))))

/-- While the type of pets is under construction, their litter is a list of them.  Cages are a list
in both positions: where nothing can be seen of one it is `JSON`, and where the key can be written
it has a type. -/
theorem outline_litter :
    typeOf ⟨litterComponents, .output⟩ 2 litter "PetLitter" litterRegistry =
        .ok (.list (.nonNull (.named "Pet")), litterRegistry) ∧
      litterRegistry.registered? .output "Pet" = some none ∧
      (∃ o, (∀ o', Outlines litterComponents litter o' ↔ o' = o) ∧
        Fits ⟨litterComponents, .output⟩ litterRegistry o (.list (.nonNull (.named "Pet")))) ∧
      ∃ r r', typeOf ⟨litterComponents, .output⟩ 3 cages "Cages" litterRegistry =
          .ok (.list (.nonNull jsonType), r) ∧
        typeOf ⟨litterComponents, .input⟩ 3 cages "Cages" litterRegistry =
          .ok (.list (.nonNull (.named "CagesItemInput")), r') ∧
        ∃ o, (∀ o', Outlines litterComponents cages o' ↔ o' = o) ∧
          Fits ⟨litterComponents, .output⟩ r o (.list (.nonNull jsonType)) ∧
          Fits ⟨litterComponents, .input⟩ r' o (.list (.nonNull (.named "CagesItemInput"))) := by
  have hlitter : typeOf ⟨litterComponents, .output⟩ 2 litter "PetLitter" litterRegistry =
      .ok (.list (.nonNull (.named "Pet")), litterRegistry) := by decide +kernel
  have hanswered : (typeOf ⟨litterComponents, .output⟩ 3 cages "Cages" litterRegistry).map
      Prod.fst = .ok (.list (.nonNull jsonType)) := by decide +kernel
  have htaken : (typeOf ⟨litterComponents, .input⟩ 3 cages "Cages" litterRegistry).map
      Prod.fst = .ok (.list (.nonNull (.named "CagesItemInput"))) := by decide +kernel
  obtain ⟨⟨_, r⟩, hanswered, rfl⟩ := map_eq_ok.mp hanswered
  obtain ⟨⟨_, r'⟩, htaken, rfl⟩ := map_eq_ok.mp htaken
  obtain ⟨o, ho, hfits, -⟩ := outline_of_typeOf reachable_litterRegistry hlitter
  obtain ⟨o', ho', hfits', -, -, hothers⟩ := outline_of_typeOf reachable_litterRegistry hanswered
  have hinput := hothers .input 3 "Cages" _ _ _ reachable_litterRegistry htaken
  exact ⟨hlitter, by decide +kernel, ⟨o, ho, hfits⟩, r, r', hanswered, htaken, o', ho', hfits',
    hinput.1⟩

end ApiGraph.Generation
