import ApiGraph.Proofs.GraphQL.SelfReference
import ApiGraph.Proofs.Generation.BuiltinNames
import ApiGraph.Proofs.Generation.Owners
import ApiGraph.Proofs.Generation.Unfolding

/-!
# Documents whose arguments need themselves

An object that is taken as an argument needs a value of another one if it has to have a property
that is such an object, and the property may not be null (`Needs`).  Types of arguments need one
another in the same way, and the check of a schema looks for cycles there.

Both come to the same.  Each step between objects is one between their types (`requires_of_needs`),
and each step between types is one between the objects that they have been made for
(`exists_needs_of_requires`), of which there is one for each type.  The other way round an object
may have several types, if it is no component; but on each cycle there is a component.

* `not_needs_of_valid`: in the document of a valid schema nothing needs itself.
* `needs_of_requires`: what has a type that needs itself needs itself.
* `needs_of_schemaOf`: so it is for every document, and for the type that an error names.
* `needs_nodes`: nodes that have to have a link, which has to have a node; and nodes that are only
  read.
-/

namespace ApiGraph.Generation

open ApiGraph.GraphQL hiding Schema
open ApiGraph.OpenApi (RefOr Schema SchemaKind Components Endpoint)
open Relation (TransGen ReflTransGen)

/-! ## Objects that are taken as arguments -/

/-- The schema is an object with a property that is not only for reading, and it is worked on as an
argument of an endpoint, or inside one. -/
structure InputSchema (c : Components) (endpoints : List Endpoint) (a : RefOr Schema) extends
    ObjectSchema ⟨c, .input⟩ a where
  taken : ∃ e ∈ endpoints, ∃ root, WorksOn e .input root ∧ Inside ⟨c, .input⟩ root a

/-- The first schema has to have a property, not only for reading, that is the second one and may
not be null. -/
inductive Needs (c : Components) (endpoints : List Endpoint) (a b : RefOr Schema) : Prop
  | property {property : String} (i : InputSchema c endpoints a) (k : InputSchema c endpoints b)
      (hproperty : (property, b) ∈ i.visible) (hrequired : property ∈ i.required)
      (hnull : k.resolved.data.nullable = false) : Needs c endpoints a b

variable {c : Components} {endpoints : List Endpoint} {a b : RefOr Schema}

theorem Needs.unfolds {value : Schema} (h : Needs c endpoints (.item value) b) :
    Unfolds ⟨c, .input⟩ (.item value) b := by
  obtain ⟨i, -, hproperty, -⟩ := h
  obtain ⟨hcomponent, -⟩ := Prod.mk.inj (Except.ok.inj i.resolve_eq)
  exact .member (hcomponent ▸ i.resolve_eq) i.kind_eq hproperty

/-! ## Types of arguments -/

variable {roots : Roots} {r : Registry} {components : List String}

/-- A member excludes null just if the property is required and not nullable. -/
theorem MemberFor.excludesNull_iff {s : Setting} {required : List String}
    {p : String × RefOr Schema} {m : InputValue} {component : Option String} {resolved : Schema}
    (h : MemberFor s r required p m) (hdone : AllDone s.components r)
    (hresolve : s.resolve p.2 = .ok (component, resolved)) :
    m.type.excludesNull = true ↔ p.1 ∈ required ∧ resolved.data.nullable = false := by
  obtain ⟨-, _, _, hresolve', hexcludes⟩ := isMemberFor_of_memberFor hdone h
  obtain ⟨-, rfl⟩ := Prod.mk.inj (Except.ok.inj (hresolve.symm.trans hresolve'))
  have hvalue : m.type.excludesNull = (required.contains p.1 && !resolved.data.nullable) :=
    hexcludes
  rw [hvalue, Bool.and_eq_true_iff, List.contains_iff_mem, Bool.not_eq_true']

section Runs

variable (hmakes : MakesFields c {} endpoints (.start components) roots r)
include hmakes

/-- Types of arguments are not called like scalars. -/
theorem not_mem_scalarNames {name : String} (hname : name ∈ r.finishedNames .input) :
    name ∉ scalarNames := by
  intro hscalar
  obtain ⟨e, he⟩ := (wellNamed_of_makesFields hmakes).exists_registered? hname
  obtain ⟨hposition, -⟩ := (hmakes.originated .input name e he).builtinSource
    (mem_builtinScalars_of_mem_scalarNames hscalar)
  cases hposition

theorem input?_assemble {t : Composite} (h : r.registered? .input t.name = some (some t)) :
    (assemble roots r).input? t.name = some t.toInput := by
  have hmem : t.toInput ∈ (assemble roots r).inputs :=
    List.mem_map_of_mem (mem_finished_of_registered? h)
  have hsome : ((assemble roots r).input? t.name).isSome = true :=
    List.find?_isSome.mpr ⟨t.toInput, hmem, beq_self_eq_true t.name⟩
  obtain ⟨i, hi⟩ := Option.isSome_iff_exists.mp hsome
  have hfind : ((assemble roots r).inputs.find? fun k => k.name == t.name) = some i := hi
  have hname := List.find?_some hfind
  have hnodup : ((assemble roots r).inputs.map (·.name)).Nodup :=
    List.Nodup.of_append_right (List.Nodup.of_append_left hmakes.nodup_typeNames)
  rw [hi, List.inj_on_of_nodup_map hnodup (List.mem_of_find?_eq_some hfind) hmem
    (beq_iff_eq.mp hname)]

/-- A type needs what its members need. -/
theorem requires_iff {t : Composite} (h : r.registered? .input t.name = some (some t))
    {name : String} :
    (assemble roots r).Requires t.name name ↔
      ∃ m ∈ t.members, m.type = .nonNull (.named name) := by
  unfold GraphQL.Schema.Requires GraphQL.Schema.requiredBy
  rw [input?_assemble hmakes h, List.mem_filterMap]
  simp only [TypeRef.required?_eq_some, Composite.toInput]

/-! ## From objects to types -/

/-- A step between objects is one between their types. -/
theorem requires_of_needs {type : TypeRef} {name : String}
    (hplace : Place c endpoints (assemble roots r) .input a type) (hnamed : IsNamed type name)
    (h : Needs c endpoints a b) :
    ∃ type' name', Place c endpoints (assemble roots r) .input b type' ∧
      IsNamed type' name' ∧ (assemble roots r).Requires name name' := by
  obtain ⟨i, k, hproperty, hrequired, hnull⟩ := h
  obtain ⟨t, hnamed₁, ht⟩ := i.exists_isMade hmakes hplace
  obtain rfl : t.name = name := hnamed₁.leaf.symm.trans hnamed.leaf
  obtain ⟨m, hm⟩ := exists_mem_zip ht.members.forall₂ hproperty
  have hplace' := hplace.member_of_isMade hnamed ht hm
  obtain ⟨t', hnamed', -⟩ := k.exists_isMade hmakes hplace'
  refine ⟨m.type, t'.name, hplace', hnamed', (requires_iff hmakes ht.registered).mpr ?_⟩
  -- The property is required and not nullable, so its type excludes null.
  have hexcludes : m.type.excludesNull = true :=
    ((List.forall₂_zip ht.members.forall₂ hm).excludesNull_iff hmakes.allDone k.resolve_eq).mpr
      ⟨hrequired, hnull⟩
  refine ⟨m, (List.of_mem_zip hm).2, hnamed'.resolve_left fun hnullable => ?_⟩
  rw [hnullable] at hexcludes
  cases hexcludes

/-- So are several steps. -/
theorem transGen_requires_of_needs {type : TypeRef} {name : String}
    (hplace : Place c endpoints (assemble roots r) .input a type) (hnamed : IsNamed type name)
    (h : TransGen (Needs c endpoints) a b) :
    ∃ type' name', Place c endpoints (assemble roots r) .input b type' ∧
      IsNamed type' name' ∧ TransGen (assemble roots r).Requires name name' := by
  induction h with
  | single hstep =>
    obtain ⟨type', name', hplace', hnamed', hrequires⟩ :=
      requires_of_needs hmakes hplace hnamed hstep
    exact ⟨type', name', hplace', hnamed', .single hrequires⟩
  | tail _ hstep ih =>
    obtain ⟨type₁, name₁, hplace₁, hnamed₁, hrequires₁⟩ := ih
    obtain ⟨type', name', hplace', hnamed', hrequires⟩ :=
      requires_of_needs hmakes hplace₁ hnamed₁ hstep
    exact ⟨type', name', hplace', hnamed', hrequires₁.tail hrequires⟩

/-- A component that needs itself has one type, which needs itself. -/
theorem requires_of_reference {target : String}
    (h : TransGen (Needs c endpoints) (.reference target) (.reference target)) :
    ∃ name, TransGen (assemble roots r).Requires name name := by
  obtain ⟨_, ⟨i, -⟩, -⟩ := TransGen.head'_iff.mp h
  obtain ⟨e, he, root, hworks, hinside⟩ := i.taken
  obtain ⟨_, hroot⟩ := exists_place_of_worksOn hmakes he hworks
  obtain ⟨type, hplace⟩ := exists_place_of_inside hmakes hinside hroot
  obtain ⟨t, hnamed, -⟩ := i.exists_isMade hmakes hplace
  obtain ⟨type', name', hplace', hnamed', hrequires⟩ :=
    transGen_requires_of_needs hmakes hplace hnamed h
  obtain ⟨component, _, hresolve⟩ := exists_refersTo i.resolve_eq
  have hcomponent : i.component = some component :=
    (Prod.mk.inj (Except.ok.inj (i.resolve_eq.symm.trans hresolve))).1
  obtain ⟨own, -, -, -, hplaces⟩ :=
    (hmakes.componentTypes hplace (hcomponent ▸ i.resolve_eq) i.kind_eq).shown i.visible_ne_nil
  have hown : t.name = own :=
    hnamed.leaf.symm.trans (hplaces _ type (i.refersTo hcomponent) hplace).leaf
  have hown' : name' = own :=
    hnamed'.leaf.symm.trans (hplaces _ type' (i.refersTo hcomponent) hplace').leaf
  rw [hown, hown'] at hrequires
  exact ⟨own, hrequires⟩

/-- In the document of a valid schema nothing needs itself. -/
theorem not_needs_of_valid (hvalid : (assemble roots r).violation? = none) (a : RefOr Schema) :
    ¬ TransGen (Needs c endpoints) a a := by
  intro hcycle
  obtain ⟨target, -, hcycle⟩ :=
    exists_reference_of_cycle (fun _ _ h => sizeOfRef_lt_of_unfolds h.unfolds) hcycle
  obtain ⟨name, hrequires⟩ := requires_of_reference hmakes hcycle
  exact not_requires_of_valid hvalid hrequires

/-! ## From types to objects -/

omit hmakes in
/-- What needs anything is a type of arguments. -/
theorem mem_finishedNames_of_requires {name name' : String}
    (h : (assemble roots r).Requires name name') : name ∈ r.finishedNames .input := by
  obtain ⟨i, hi, rfl⟩ := GraphQL.Schema.exists_input_of_requires h
  obtain ⟨t, ht, rfl⟩ := List.mem_map.mp hi
  exact List.mem_map_of_mem ht

/-- A step between types is one between the objects that they have been made for. -/
theorem exists_needs_of_requires {type : TypeRef} {name name' : String}
    (hplace : Place c endpoints (assemble roots r) .input a type) (hnamed : IsNamed type name)
    (h : (assemble roots r).Requires name name') (hname' : name' ∈ r.finishedNames .input) :
    ∃ b type', Place c endpoints (assemble roots r) .input b type' ∧ IsNamed type' name' ∧
      Needs c endpoints a b := by
  have hname := mem_finishedNames_of_requires h
  obtain ⟨o, t, rfl, ht⟩ :=
    hplace.object hmakes hnamed hname (not_mem_scalarNames hmakes hname)
  obtain ⟨m, hm, htype⟩ := (requires_iff hmakes ht.registered).mp h
  obtain ⟨p, hp⟩ := exists_zip_of_mem ht.members.forall₂ hm
  have hplace' := hplace.member_of_isMade hnamed ht hp
  have hnamed' : IsNamed m.type name' := Or.inr htype
  obtain ⟨o', -⟩ := hplace'.object hmakes hnamed' hname' (not_mem_scalarNames hmakes hname')
  have hexcludes : m.type.excludesNull = true := by rw [htype]; rfl
  obtain ⟨hrequired, hnull⟩ :=
    ((List.forall₂_zip ht.members.forall₂ hp).excludesNull_iff hmakes.allDone o'.resolve_eq).mp
      hexcludes
  exact ⟨p.2, m.type, hplace', hnamed', .property ⟨o, hplace.exists_worksOn⟩
    ⟨o', hplace'.exists_worksOn⟩ (List.of_mem_zip hp).1 hrequired hnull⟩

end Runs

/-- The object that a type has been made for stands in all places of the type. -/
structure MadeFor (c : Components) (endpoints : List Endpoint) (schema : GraphQL.Schema)
    (name : String) (a : RefOr Schema) : Prop where
  placed : ∃ type, Place c endpoints schema .input a type ∧ IsNamed type name
  places : ∀ b type, Place c endpoints schema .input b type → IsNamed type name → b = a

section Owners

variable (h : rootFields c {} endpoints (.start c.schemas.keys) = .ok (roots, r))
include h

/-- So are several steps, as there is one object for a type. -/
theorem transGen_needs_of_requires {type : TypeRef} {name name' : String}
    (hplace : Place c endpoints (assemble roots r) .input a type) (hnamed : IsNamed type name)
    (hrequires : TransGen (assemble roots r).Requires name name')
    (hname' : name' ∈ r.finishedNames .input) :
    ∃ b type', Place c endpoints (assemble roots r) .input b type' ∧ IsNamed type' name' ∧
      TransGen (Needs c endpoints) a b := by
  have hmakes := makes_of_rootFields h
  induction hrequires using TransGen.head_induction_on generalizing a type with
  | single hstep =>
    obtain ⟨b, type', hplace', hnamed', hneeds⟩ :=
      exists_needs_of_requires hmakes hplace hnamed hstep hname'
    exact ⟨b, type', hplace', hnamed', .single hneeds⟩
  | head hstep hrest ih =>
    obtain ⟨_, hnext, -⟩ := TransGen.head'_iff.mp hrest
    obtain ⟨b₁, type₁, hplace₁, hnamed₁, hneeds₁⟩ := exists_needs_of_requires hmakes hplace
      hnamed hstep (mem_finishedNames_of_requires hnext)
    obtain ⟨b, type', hplace', hnamed', hneeds⟩ := ih hplace₁ hnamed₁
    exact ⟨b, type', hplace', hnamed', .head hneeds₁ hneeds⟩

/-- What has a type that needs itself needs itself. -/
theorem needs_of_requires {name : String}
    (hcycle : TransGen (assemble roots r).Requires name name) :
    ∃ a, MadeFor c endpoints (assemble roots r) name a ∧ TransGen (Needs c endpoints) a a := by
  have hmakes := makes_of_rootFields h
  obtain ⟨_, hstep, -⟩ := TransGen.head'_iff.mp hcycle
  have hname := mem_finishedNames_of_requires hstep
  obtain ⟨a, type, hplace, hnamed⟩ :=
    hmakes.exists_place_of_registered (fun _ => not_mem_scalarNames hmakes) hname
  have hplaces : ∀ b type', Place c endpoints (assemble roots r) .input b type' →
      IsNamed type' name → b = a := fun b type' hplace' hnamed' =>
    Place.owner h hplace' hplace hnamed' hnamed hname (not_mem_scalarNames hmakes hname)
  obtain ⟨b, type', hplace', hnamed', hneeds⟩ :=
    transGen_needs_of_requires h hplace hnamed hcycle hname
  rw [hplaces b type' hplace' hnamed'] at hneeds
  exact ⟨a, ⟨⟨type, hplace, hnamed⟩, hplaces⟩, hneeds⟩

end Owners

/-! ## Documents -/

/-- If a document has a schema, nothing that is taken as an argument needs itself.  If it has none
because a type of arguments refers to itself, then what that type has been made for needs itself. -/
theorem needs_of_schemaOf (j : Json) :
    (∀ schema, schemaOf j = .ok schema → ∃ d endpoints, documentOf j = .ok d ∧
      d.endpoints = .ok endpoints ∧ ∀ a, ¬ TransGen (Needs d.components endpoints) a a) ∧
    (∀ name, schemaOf j = .error (.problem (.invalidSchema (.selfReference name))) →
      ∃ d endpoints schema, documentOf j = .ok d ∧ d.endpoints = .ok endpoints ∧
        assembled d.components endpoints = .ok schema ∧
          ∃ a, MadeFor d.components endpoints schema name a ∧
            TransGen (Needs d.components endpoints) a a) := by
  constructor
  · intro schema h
    obtain ⟨d, endpoints, roots, r, hdocument, hendpoints, hroots, rfl, hvalid⟩ :=
      rootFields_of_schemaOf h
    exact ⟨d, endpoints, hdocument, hendpoints,
      not_needs_of_valid (makes_of_rootFields hroots) hvalid⟩
  · intro name h
    obtain ⟨d, endpoints, roots, r, hdocument, hendpoints, hroots, hviolation⟩ :=
      invalidSchema_iff.mp h
    obtain ⟨-, hcycle⟩ := requires_of_selfReference hviolation
    refine ⟨d, endpoints, assemble roots r, hdocument, hendpoints, ?_,
      needs_of_requires hroots hcycle⟩
    exact bind_eq_ok.mpr ⟨_, hroots, rfl⟩

/-- A document that takes a list of nodes, each of which has to have a link with the next one.  The
marks say more about nodes. -/
def nodeDocument (marks : List (String × Json)) : Json :=
  .object [("openapi", .string "3.0.0"),
    ("info", .object [("title", .string "Nodes"), ("version", .string "1")]),
    ("paths", .object [("/nodes", .object [("post", .object [("requestBody",
      .object [("content", .object [("application/json", .object [("schema",
        .object [("type", .string "array"), ("items",
          .object [("$ref", .string "#/components/schemas/Node")])])])])]),
      ("responses", .object [])])])]),
    ("components", .object [("schemas", .object [
      ("Node", .object (marks ++ [("type", .string "object"), ("required", .array [.string "link"]),
        ("properties", .object [("link", .object [("type", .string "object"),
          ("required", .array [.string "next"]), ("properties", .object [
            ("label", .object [("type", .string "string")]),
            ("next", .object [("$ref", .string "#/components/schemas/Node")])])])])]))])])]

def nodeSchema : RefOr Schema :=
  .reference "#/components/schemas/Node"

def nodeLink : RefOr Schema :=
  .item (.mk {} (.object [("label", .item (.mk {} .string)), ("next", nodeSchema)] ["next"]))

/-- The components of the document whose nodes are only read. -/
def readNodeComponents : Components :=
  { schemas := [("Node",
      .item (.mk { readOnly := true } (.object [("link", nodeLink)] ["link"])))] }

/-- The body is a list of nodes. -/
def nodeBody : RefOr Schema :=
  .item (.mk {} (.array (some nodeSchema)))

def nodeEndpoint : Endpoint :=
  { path := "/nodes", method := .post
    body := some { component := none, schema := nodeBody, required := false } }

/-- Where nodes are only read, each of them needs its link all the same. -/
theorem needs_nodeLink : Needs readNodeComponents [nodeEndpoint] nodeSchema nodeLink := by
  have hlink : ("link", nodeLink) ∈
      Setting.visible ⟨readNodeComponents, .input⟩ [("link", nodeLink)] :=
    List.mem_filter.mpr ⟨List.mem_singleton_self _, rfl⟩
  have hlabel : ("label", .item (.mk {} .string)) ∈ Setting.visible ⟨readNodeComponents, .input⟩
      [("label", .item (.mk {} .string)), ("next", nodeSchema)] :=
    List.mem_filter.mpr ⟨List.mem_cons_self .., rfl⟩
  have hnode : Inside ⟨readNodeComponents, .input⟩ nodeBody nodeSchema := .item rfl rfl (.refl _)
  have hinside : Inside ⟨readNodeComponents, .input⟩ nodeBody nodeLink :=
    .item rfl rfl (.member rfl rfl hlink (.refl _))
  have he := List.mem_singleton_self nodeEndpoint
  exact .property
    ⟨⟨_, _, _, _, rfl, rfl, List.ne_nil_of_mem hlink⟩, _, he, _, .body rfl, hnode⟩
    ⟨⟨_, _, _, _, rfl, rfl, List.ne_nil_of_mem hlabel⟩, _, he, _, .body rfl, hinside⟩
    hlink (List.mem_singleton_self _) rfl

/-- A node that has to have a link with the next one needs itself.  If nodes are only read, the same
document has a schema: a node still needs its link, but the link needs no node. -/
theorem needs_nodes :
    (schemaOf (nodeDocument []) = .error (.problem (.invalidSchema (.selfReference "NodeInput"))) ∧
      ∃ d endpoints schema, documentOf (nodeDocument []) = .ok d ∧ d.endpoints = .ok endpoints ∧
        assembled d.components endpoints = .ok schema ∧
          ∃ a, MadeFor d.components endpoints schema "NodeInput" a ∧
            TransGen (Needs d.components endpoints) a a) ∧
      ∃ schema d, schemaOf (nodeDocument [("readOnly", .bool true)]) = .ok schema ∧
        documentOf (nodeDocument [("readOnly", .bool true)]) = .ok d ∧
        d.endpoints = .ok [nodeEndpoint] ∧
        Needs d.components [nodeEndpoint] nodeSchema nodeLink ∧
          ¬ Needs d.components [nodeEndpoint] nodeLink nodeSchema := by
  have hinvalid : schemaOf (nodeDocument []) =
      .error (.problem (.invalidSchema (.selfReference "NodeInput"))) := by decide +kernel
  refine ⟨⟨hinvalid, (needs_of_schemaOf (nodeDocument [])).2 "NodeInput" hinvalid⟩, ?_⟩
  have hread : documentOf (nodeDocument [("readOnly", .bool true)]) = .ok
      { components := readNodeComponents
        paths := [("/nodes", .item { operations := [(.post, { requestBody := some (.item
          { content := [("application/json", some nodeBody)], required := false }) })] })] } := rfl
  obtain ⟨schema, hschema⟩ :
      ∃ schema, schemaOf (nodeDocument [("readOnly", .bool true)]) = .ok schema := ⟨_, rfl⟩
  obtain ⟨d, endpoints, hdocument, hendpoints, hnone⟩ :=
    (needs_of_schemaOf (nodeDocument [("readOnly", .bool true)])).1 schema hschema
  obtain rfl := Except.ok.inj (hread.symm.trans hdocument)
  obtain rfl : [nodeEndpoint] = endpoints := Except.ok.inj hendpoints
  exact ⟨schema, _, hschema, hread, hendpoints, needs_nodeLink, fun h =>
    hnone nodeSchema (.tail (.single needs_nodeLink) h)⟩

end ApiGraph.Generation
