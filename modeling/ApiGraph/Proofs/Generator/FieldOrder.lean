import ApiGraph.Proofs.Generation.Growth
import ApiGraph.Proofs.Generator.Bindings
import ApiGraph.Proofs.OpenApi.Operations
import Mathlib.Data.List.Dedup

/-!
# The order of root fields

Root fields follow the endpoints, and these follow the paths of the document.  The operations of one
path are not kept as the path item lists them: there is a slot for every method, and they are read
in the order of the slots, `Method.all`.  A path item has one slot for `GET`, so the read operations
stand in the order of the document all the same.  For the others this is so only if every path item
lists them in the order of the slots (`InOrder`).

* `operationsBy`: the operations of a document, with the methods of each path item in some order.
* `inOrder_iff`: when a path item lists its methods in the order of the slots.
* `fieldNames_of_schemaOf`: the order of the fields of both roots.
* `fieldNames_deletePets`: a path item that lists `delete` before `post`.
-/

namespace ApiGraph

/-- The method whose operations stand under the key. -/
def OpenApi.Method.ofKey? (key : String) : Option OpenApi.Method :=
  OpenApi.Method.all.find? fun m => m.key == key

/-- The names of the fields of the object type with the name; none if there is no such type. -/
def GraphQL.Schema.fieldNames (schema : GraphQL.Schema) (name : String) : List String :=
  ((schema.object? name).map fun o => o.fields.map (·.name)).getD []

namespace Generation

open ApiGraph.GraphQL hiding Schema
open ApiGraph.OpenApi (Components Document Endpoint Method PlacedOperation operationsOn endpointsOn
  forall₂_of_mapM forall₂_endpoints)

/-! ## The methods of a path item -/

/-- Is there an operation with the method? -/
def hasMethod (item : Json) (m : Method) : Bool :=
  (OpenApi.Reader.member? item m.key).isSome

/-- The methods of a path item in the order of the slots. -/
def slottedMethods (item : Json) : List Method :=
  Method.all.filter (hasMethod item)

/-- The methods of a path item in the order in which it lists them. -/
def listedMethods (item : Json) : List Method :=
  ((item.members.filterMap fun member => Method.ofKey? member.1).dedup).filter (hasMethod item)

/-- The path item lists its operations, apart from the one that only reads, in the order of the
slots. -/
def InOrder (item : Json) : Prop :=
  ((listedMethods item).filter (· != .get)).Sublist Method.all

instance (item : Json) : Decidable (InOrder item) :=
  inferInstanceAs (Decidable (((listedMethods item).filter (· != .get)).Sublist Method.all))

theorem ofKey?_key (m : Method) : Method.ofKey? m.key = some m := by
  cases m <;> rfl

theorem mem_all (m : Method) : m ∈ Method.all := by
  cases m <;> decide

theorem mem_slottedMethods {item : Json} {m : Method} :
    m ∈ slottedMethods item ↔ hasMethod item m = true := by
  rw [slottedMethods, List.mem_filter, and_iff_right (mem_all m)]

theorem mem_listedMethods {item : Json} {m : Method} :
    m ∈ listedMethods item ↔ hasMethod item m = true := by
  refine ⟨fun h => (List.mem_filter.mp h).2, fun h => List.mem_filter.mpr ⟨?_, h⟩⟩
  obtain ⟨o, ho⟩ := Option.isSome_iff_exists.mp h
  obtain ⟨hmember, -⟩ := Option.filter_eq_some_iff.mp ho
  rw [List.mem_dedup, List.mem_filterMap]
  cases item with
  | object members => exact ⟨(m.key, o), Dictionary.mem_of_get? hmember, ofKey?_key m⟩
  | null | bool _ | number _ | string _ | array _ => exact nomatch hmember

/-- Slots and members hold the same methods, each once. -/
theorem perm_listedMethods (item : Json) : (listedMethods item).Perm (slottedMethods item) := by
  have hlisted : (listedMethods item).Nodup := (List.nodup_dedup _).filter _
  have hslotted : (slottedMethods item).Nodup := List.Nodup.filter _ (by decide)
  refine (List.perm_ext_iff_of_nodup hlisted hslotted).mpr fun m => ?_
  rw [mem_listedMethods, mem_slottedMethods]

theorem inOrder_iff {item : Json} : InOrder item ↔
    (listedMethods item).filter (· != .get) = (slottedMethods item).filter (· != .get) := by
  have hperm := (perm_listedMethods item).filter (· != .get)
  constructor
  · intro h
    -- Among the methods of the slots, those that the item has are the ones that it lists.
    have hkept := h.filter fun m => hasMethod item m && m != .get
    have hall : ∀ m ∈ (listedMethods item).filter (· != .get),
        (hasMethod item m && m != .get) = true := by
      intro m hm
      obtain ⟨hlisted, hnot⟩ := List.mem_filter.mp hm
      exact Bool.and_eq_true_iff.mpr ⟨mem_listedMethods.mp hlisted, hnot⟩
    rw [List.filter_eq_self.mpr hall] at hkept
    have hslotted : Method.all.filter (fun m => hasMethod item m && m != .get) =
        (slottedMethods item).filter (· != .get) := by
      rw [slottedMethods, List.filter_filter]
      exact List.filter_congr fun m _ => Bool.and_comm ..
    rw [hslotted] at hkept
    exact hkept.eq_of_length hperm.length_eq
  · intro h
    rw [InOrder, h]
    exact List.filter_sublist.trans List.filter_sublist

/-- There is one slot for read operations, so they are in order. -/
theorem filter_get_listedMethods (item : Json) :
    (listedMethods item).filter (· == .get) = (slottedMethods item).filter (· == .get) := by
  have hperm := (perm_listedMethods item).filter (· == .get)
  have hget : Method.all.filter (· == .get) = [.get] := by decide
  have hslotted : (slottedMethods item).filter (· == .get) = [.get].filter (hasMethod item) := by
    rw [← hget, slottedMethods, List.filter_filter, List.filter_filter]
    exact List.filter_congr fun m _ => Bool.and_comm ..
  rw [hslotted] at hperm ⊢
  cases hhas : hasMethod item .get with
  | true =>
    rw [List.filter_cons_of_pos hhas] at hperm ⊢
    exact List.perm_singleton.mp hperm
  | false =>
    rw [List.filter_cons_of_neg (Bool.eq_false_iff.mp hhas)] at hperm ⊢
    exact hperm.eq_nil

/-! ## The operations of a document -/

/-- The paths of a document with their items, as they are written. -/
def pathItems (j : Json) : List (String × Json) :=
  (OpenApi.Reader.membersAt j "paths").filter fun p => OpenApi.isPathKey p.1

/-- The operation of a path item with the method. -/
def operationAt? (path : String) (item : Json) (m : Method) : Option PlacedOperation :=
  (OpenApi.Reader.member? item m.key).map fun o =>
    { path, method := m, operation := OpenApi.Reader.operation o
      shared := (OpenApi.Reader.pathItem item).parameters }

/-- The operations of a document, path by path, with the methods of each item in the given order. -/
def operationsBy (methods : Json → List Method) (j : Json) : List PlacedOperation :=
  (pathItems j).flatMap fun p => (methods p.2).filterMap (operationAt? p.1 p.2)

theorem method_of_operationAt? {path : String} {item : Json} {m : Method} {x : PlacedOperation}
    (h : operationAt? path item m = some x) : x.method = m := by
  obtain ⟨o, -, rfl⟩ := Option.map_eq_some_iff.mp h
  rfl

theorem filterMap_slottedMethods (path : String) (item : Json) :
    (slottedMethods item).filterMap (operationAt? path item) =
      (OpenApi.Reader.pathItem item).placed path := by
  rw [slottedMethods, List.filterMap_filter, OpenApi.PathItem.placed, OpenApi.Reader.pathItem,
    List.map_filterMap]
  refine List.filterMap_congr fun m _ => ?_
  unfold hasMethod operationAt?
  cases OpenApi.Reader.member? item m.key <;> rfl

theorem operationsOn_eq {c : Components} {items : List (String × Json)} {endpoints : List Endpoint}
    (h : endpointsOn c (items.map fun p =>
      (p.1, OpenApi.Reader.refOr OpenApi.Reader.pathItem p.2)) = .ok endpoints) :
    operationsOn (items.map fun p => (p.1, OpenApi.Reader.refOr OpenApi.Reader.pathItem p.2)) =
      items.flatMap fun p => (slottedMethods p.2).filterMap (operationAt? p.1 p.2) := by
  induction items generalizing endpoints with
  | nil => rfl
  | cons p items ih =>
    rw [List.map_cons] at h ⊢
    cases htarget : OpenApi.Reader.text? p.2 "$ref" with
    | some target =>
      rw [OpenApi.Reader.refOr, htarget] at h
      exact nomatch h
    | none =>
      have hitem : OpenApi.Reader.refOr OpenApi.Reader.pathItem p.2 =
          .item (OpenApi.Reader.pathItem p.2) := by
        rw [OpenApi.Reader.refOr, htarget]
      rw [hitem] at h ⊢
      obtain ⟨_, -, h⟩ := bind_eq_ok.mp h
      obtain ⟨_, hrest, -⟩ := bind_eq_ok.mp h
      rw [operationsOn, List.flatMap_cons, filterMap_slottedMethods, ih hrest]

/-- The operations of a document stand in the order of the slots. -/
theorem operations_eq {j : Json} {d : Document} {endpoints : List Endpoint}
    (hdocument : documentOf j = .ok d) (hendpoints : d.endpoints = .ok endpoints) :
    d.operations = operationsBy slottedMethods j := by
  obtain rfl := document_of_documentOf hdocument
  exact operationsOn_eq hendpoints

variable {j : Json} {methods methods' : Json → List Method}

theorem filter_operationsBy (keep : Method → Bool) :
    (operationsBy methods j).filter (fun x => keep x.method) =
      operationsBy (fun item => (methods item).filter keep) j := by
  rw [operationsBy, operationsBy, List.filter_flatMap]
  refine List.flatMap_congr fun p _ => ?_
  rw [List.filter_filterMap, List.filterMap_filter]
  refine List.filterMap_congr fun m _ => ?_
  cases hoperation : operationAt? p.1 p.2 m with
  | none => cases keep m <;> rfl
  | some x => rw [Option.filter_some, method_of_operationAt? hoperation]

theorem methods_operationsBy (h : ∀ item, ∀ m ∈ methods item, hasMethod item m = true) :
    (operationsBy methods j).map (·.method) = (pathItems j).flatMap fun p => methods p.2 := by
  rw [operationsBy, List.map_flatMap]
  refine List.flatMap_congr fun p _ => ?_
  rw [List.map_filterMap]
  refine (List.filterMap_congr fun m hm => ?_).trans List.filterMap_some
  obtain ⟨o, ho⟩ := Option.isSome_iff_exists.mp (h p.2 m hm)
  rw [operationAt?, ho]
  rfl

theorem mem_operationsBy_of_perm (h : ∀ item, (methods item).Perm (methods' item))
    {x : PlacedOperation} (hx : x ∈ operationsBy methods j) : x ∈ operationsBy methods' j := by
  obtain ⟨p, hp, hx⟩ := List.mem_flatMap.mp hx
  exact List.mem_flatMap.mpr ⟨p, hp, ((h p.2).filterMap _).subset hx⟩

/-! ## The endpoints of operations -/

variable {c : Components} {xs xs' : List PlacedOperation} {endpoints endpoints' : List Endpoint}

/-- Operations with their endpoints. -/
abbrev EndpointsOf (c : Components) : List PlacedOperation → List Endpoint → Prop :=
  List.Forall₂ fun x e => x.endpoint c = .ok e

theorem method_of_endpoint {x : PlacedOperation} {e : Endpoint} (h : x.endpoint c = .ok e) :
    e.method = x.method := by
  obtain ⟨_, -, h⟩ := bind_eq_ok.mp h
  obtain ⟨_, -, h⟩ := bind_eq_ok.mp h
  obtain ⟨_, -, h⟩ := bind_eq_ok.mp h
  obtain ⟨_, -, h⟩ := bind_eq_ok.mp h
  obtain rfl := Except.ok.inj h
  rfl

theorem EndpointsOf.map_method (h : EndpointsOf c xs endpoints) :
    endpoints.map (·.method) = xs.map (·.method) := by
  induction h with
  | nil => rfl
  | cons hhead _ ih => rw [List.map_cons, List.map_cons, ih, method_of_endpoint hhead]

theorem EndpointsOf.filter (h : EndpointsOf c xs endpoints) (keep : Method → Bool) :
    EndpointsOf c (xs.filter fun x => keep x.method) (endpoints.filter fun e => keep e.method) := by
  refine List.rel_filter (fun x e hx => ?_) h
  show keep x.method = true ↔ keep e.method = true
  rw [method_of_endpoint hx]

theorem EndpointsOf.unique (h : EndpointsOf c xs endpoints) (h' : EndpointsOf c xs endpoints') :
    endpoints = endpoints' := by
  refine List.right_unique_forall₂' (fun x e e' he he' => ?_) h h'
  exact Except.ok.inj (he.symm.trans he')

theorem EndpointsOf.mem (h : EndpointsOf c xs endpoints) (h' : EndpointsOf c xs' endpoints')
    (hsubset : xs ⊆ xs') : endpoints ⊆ endpoints' := by
  intro e he
  obtain ⟨x, hx, hendpoint⟩ := exists_of_forall₂ h.flip he
  obtain ⟨e', he', hendpoint'⟩ := exists_of_forall₂ h' (hsubset hx)
  exact Except.ok.inj (hendpoint'.symm.trans hendpoint) ▸ he'

/-- With the methods in another order there are endpoints just as well. -/
theorem exists_endpoints_of_perm (h : ∀ item, (methods item).Perm (methods' item))
    (hendpoints : EndpointsOf c (operationsBy methods' j) endpoints) :
    ∃ endpoints', EndpointsOf c (operationsBy methods j) endpoints' := by
  refine exists_forall₂ fun x hx => ?_
  obtain ⟨e, -, he⟩ := exists_of_forall₂ hendpoints (mem_operationsBy_of_perm h hx)
  exact ⟨e, he⟩

/-! ## The fields of the roots -/

theorem fieldNames_query (roots : Roots) (r : Registry) :
    (assemble roots r).fieldNames queryName = roots.queryFields.map (·.name) := rfl

theorem names_queryFields {components : List String} {roots : Roots} {r : Registry}
    (hmakes : MakesFields c {} endpoints (.start components) roots r) :
    roots.queryFields.map (·.name) =
      if (endpoints.filter (·.isQuery)).isEmpty then [placeholder.name]
      else (endpoints.filter (·.isQuery)).map (·.fieldName) := by
  have hnames : roots.query.map (·.name) = (endpoints.filter (·.isQuery)).map (·.fieldName) :=
    fieldNames_of_names (names_of_makesFields hmakes).1
  have hempty : roots.query.isEmpty = (endpoints.filter (·.isQuery)).isEmpty := by
    rw [← List.isEmpty_map, hnames, List.isEmpty_map]
  rw [Roots.queryFields, hempty]
  split
  · rfl
  · exact hnames

theorem fieldNames_mutation {roots : Roots} {r : Registry} (hsound : r.Sound) :
    (assemble roots r).fieldNames mutationName = roots.mutation.map (·.name) := by
  unfold GraphQL.Schema.fieldNames GraphQL.Schema.object?
  rw [objects_assemble, List.find?_append]
  cases hmutation : roots.mutation with
  | nil =>
    have hnone : ((finished r.objects).map (·.toObject)).find? (·.name == mutationName) = none := by
      refine List.find?_eq_none.mpr fun o ho hname => ?_
      obtain ⟨t, ht, rfl⟩ := List.mem_map.mp ho
      have hfree := (hsound.finished .output t ht).name_free
      rw [show t.name = mutationName from beq_iff_eq.mp hname] at hfree
      exact hfree (by decide)
    rw [hnone, Roots.objects, hmutation]
    rfl
  | cons f rest =>
    rw [Roots.objects, hmutation]
    rfl

/-- Lists are equal if their images are, and one holds what the other holds. -/
theorem eq_of_map_eq {α β : Type} {f : α → β} {l l' : List α} (hnodup : (l.map f).Nodup)
    (hsubset : l' ⊆ l) (h : l.map f = l'.map f) : l = l' := by
  have hinjective := List.inj_on_of_nodup_map hnodup
  have hlength : l.length = l'.length := by
    simpa using congrArg List.length h
  refine List.ext_getElem hlength fun i hi hi' => ?_
  have himage : f l[i] = f l'[i] := by
    rw [← List.getElem_map f (h := by simpa using hi),
      ← List.getElem_map f (h := by simpa using hi')]
    exact List.getElem_of_eq h _
  exact hinjective (List.getElem_mem hi) (hsubset (List.getElem_mem hi')) himage

theorem eq_of_flatMap_eq {α β : Type} {f g : α → List β} {l : List α}
    (hlength : ∀ a ∈ l, (f a).length = (g a).length) (h : l.flatMap f = l.flatMap g) :
    ∀ a ∈ l, f a = g a := by
  induction l with
  | nil => exact fun a ha => absurd ha List.not_mem_nil
  | cons a l ih =>
    obtain ⟨hhere, hthere⟩ := List.forall_mem_cons.mp hlength
    rw [List.flatMap_cons, List.flatMap_cons] at h
    obtain ⟨hhead, htail⟩ := List.append_inj h hhere
    exact List.forall_mem_cons.mpr ⟨hhead, ih hthere htail⟩

section Order

variable {slotted listed : List Endpoint}
  (hslotted : EndpointsOf c (operationsBy slottedMethods j) slotted)
  (hlisted : EndpointsOf c (operationsBy listedMethods j) listed)

include hslotted hlisted

/-- Endpoints that only read stand in the order of the document. -/
theorem queries_eq : listed.filter (·.isQuery) = slotted.filter (·.isQuery) := by
  have hoperations : (operationsBy listedMethods j).filter (fun x => x.method == .get) =
      (operationsBy slottedMethods j).filter (fun x => x.method == .get) := by
    rw [filter_operationsBy (· == .get), filter_operationsBy (· == .get)]
    simp only [filter_get_listedMethods]
  have hqueries := hlisted.filter (· == .get)
  rw [hoperations] at hqueries
  exact hqueries.unique (hslotted.filter (· == .get))

/-- The other endpoints do so if every path item lists them in the order of the slots. -/
theorem mutations_eq (h : ∀ p ∈ pathItems j, InOrder p.2) :
    slotted.filter (!·.isQuery) = listed.filter (!·.isQuery) := by
  have hoperations : (operationsBy slottedMethods j).filter (fun x => x.method != .get) =
      (operationsBy listedMethods j).filter (fun x => x.method != .get) := by
    rw [filter_operationsBy (· != .get), filter_operationsBy (· != .get)]
    refine List.flatMap_congr fun p hp => ?_
    exact congrArg (List.filterMap _) (inOrder_iff.mp (h p hp)).symm
  have hmutations := hslotted.filter (· != .get)
  rw [hoperations] at hmutations
  exact hmutations.unique (hlisted.filter (· != .get))

/-- A path item that lists its operations otherwise shows in the names of the fields. -/
theorem inOrder_of_fieldNames
    (hnodup : ((slotted.filter (!·.isQuery)).map (·.fieldName)).Nodup)
    (h : (slotted.filter (!·.isQuery)).map (·.fieldName) =
      (listed.filter (!·.isQuery)).map (·.fieldName)) :
    ∀ p ∈ pathItems j, InOrder p.2 := by
  have hsubset : listed ⊆ slotted := hlisted.mem hslotted fun x hx =>
    mem_operationsBy_of_perm perm_listedMethods hx
  have hendpoints := eq_of_map_eq hnodup (List.filter_subset _ hsubset) h
  have hmethods :
      ((operationsBy slottedMethods j).filter fun x => x.method != .get).map (·.method) =
        ((operationsBy listedMethods j).filter fun x => x.method != .get).map (·.method) := by
    rw [← (hslotted.filter (· != .get)).map_method, ← (hlisted.filter (· != .get)).map_method]
    exact congrArg (List.map (·.method)) hendpoints
  rw [filter_operationsBy (· != .get), filter_operationsBy (· != .get),
    methods_operationsBy fun item m hm => mem_slottedMethods.mp (List.mem_of_mem_filter hm),
    methods_operationsBy fun item m hm => mem_listedMethods.mp (List.mem_of_mem_filter hm)]
    at hmethods
  have hlength : ∀ p ∈ pathItems j, ((slottedMethods p.2).filter (· != .get)).length =
      ((listedMethods p.2).filter (· != .get)).length :=
    fun p _ => ((perm_listedMethods p.2).filter _).length_eq.symm
  exact fun p hp => inOrder_iff.mpr (eq_of_flatMap_eq hlength hmethods p hp).symm

end Order

end Generation

namespace Generator

open ApiGraph.Engine
open ApiGraph.Generation
open ApiGraph.GraphQL hiding Schema
open ApiGraph.OpenApi (forall₂_endpoints)

/-- A resolver has the fields of its root, in order. -/
theorem fieldNames_of_generate {j : Json} {schema : GraphQL.Schema}
    (hschema : schemaOf j = .ok schema) {s : Session} (hs : s.OnDocument j) {name url : String}
    {headers : List (String × String)} {config : Configuration}
    (h : (s.generate name url headers).1 = .ok config) {resolver : Resolver}
    (hresolver : resolver ∈ config.resolvers) :
    resolver.fieldNames = schema.fieldNames resolver.typeName := by
  obtain ⟨schema', hschema', rfl⟩ := configuration_of_generate hs h
  obtain rfl := Except.ok.inj (hschema'.symm.trans hschema)
  obtain ⟨-, -, hmakes, -⟩ := makes_of_schemaOf hschema
  have hsound := (sound_of_makesFields hmakes).1
  obtain ⟨root, fields, hfields, rfl⟩ :=
    (mem_resolvers_iff _ hsound name url headers _).mp hresolver
  have hnames : (fields.map fieldSignature).map (·.name) = fields.map (·.name) := List.map_map
  rw [Resolver.ofSignatures, hnames]
  cases root with
  | query =>
    obtain rfl := Option.some.inj hfields
    exact (fieldNames_query _ _).symm
  | mutation =>
    rw [rootFields?] at hfields
    split at hfields
    · exact absurd hfields.symm (Option.some_ne_none fields)
    · obtain rfl := Option.some.inj hfields
      exact (fieldNames_mutation hsound).symm

/-- The fields of the roots follow the paths of the document, those of `Query` in the order of the
document and those of `Mutation`, on each path, in the order of the slots.  That is the order of the
document just if every path item lists its operations in the order of the slots.  A resolver has the
fields in the order of the schema. -/
theorem fieldNames_of_schemaOf {j : Json} {schema : GraphQL.Schema} (h : schemaOf j = .ok schema) :
    (∃ d slotted listed, documentOf j = .ok d ∧
      EndpointsOf d.components (operationsBy slottedMethods j) slotted ∧
      EndpointsOf d.components (operationsBy listedMethods j) listed ∧
      schema.fieldNames queryName =
        (if (listed.filter (·.isQuery)).isEmpty then [placeholder.name]
        else (listed.filter (·.isQuery)).map (·.fieldName)) ∧
      schema.fieldNames mutationName = (slotted.filter (!·.isQuery)).map (·.fieldName) ∧
      (schema.fieldNames mutationName = (listed.filter (!·.isQuery)).map (·.fieldName) ↔
        ∀ p ∈ pathItems j, InOrder p.2)) ∧
      ∀ (s : Session) (name url : String) (headers : List (String × String))
        (config : Configuration), s.OnDocument j → (s.generate name url headers).1 = .ok config →
          ∀ resolver ∈ config.resolvers,
            resolver.fieldNames = schema.fieldNames resolver.typeName := by
  refine ⟨?_, fun s name url headers config hs hconfig resolver hresolver =>
    fieldNames_of_generate h hs hconfig hresolver⟩
  cases makes_of_schemaOf h with
  | @mk d slotted roots r hdocument hendpoints hmakes _ =>
    have hslotted : EndpointsOf d.components (operationsBy slottedMethods j) slotted :=
      operations_eq hdocument hendpoints ▸ forall₂_endpoints hendpoints
    obtain ⟨listed, hlisted⟩ := exists_endpoints_of_perm perm_listedMethods hslotted
    have hmutation : (assemble roots r).fieldNames mutationName =
        (slotted.filter (!·.isQuery)).map (·.fieldName) := by
      rw [fieldNames_mutation (sound_of_makesFields hmakes).1]
      exact fieldNames_of_names (names_of_makesFields hmakes).2
    refine ⟨d, slotted, listed, hdocument, hslotted, hlisted, ?_, hmutation, ?_⟩
    · rw [fieldNames_query, names_queryFields hmakes, queries_eq hslotted hlisted]
    · rw [hmutation]
      refine ⟨inOrder_of_fieldNames hslotted hlisted hmakes.distinct.mutation, fun hitems => ?_⟩
      rw [mutations_eq hslotted hlisted hitems]

/-- Pets that can be deleted, listed and added; the path item says so in this order. -/
def deletePets : Json :=
  let operation : Json := .object [("responses", .object [])]
  .object [("openapi", .string "3.0.0"),
    ("info", .object [("title", .string "Pets"), ("version", .string "1")]),
    ("paths", .object [("/pets", .object [("delete", operation), ("get", operation),
      ("post", operation)])])]

def deletePetsSchema : GraphQL.Schema :=
  { objects := [
      { name := "Query", fields := [{ name := "pets", type := .named "String" }] },
      { name := "Mutation", fields := [{ name := "postPets", type := .named "String" },
        { name := "deletePets", type := .named "String" }] }]
    inputs := []
    usesJson := false
    hasMutation := true }

/-- Adding comes before deleting, although the path item begins with the latter. -/
theorem fieldNames_deletePets :
    schemaOf deletePets = .ok deletePetsSchema ∧
      deletePetsSchema.fieldNames mutationName = ["postPets", "deletePets"] ∧
      (pathItems deletePets).map (fun p => listedMethods p.2) = [[.delete, .get, .post]] ∧
      ∃ d listed, documentOf deletePets = .ok d ∧
        EndpointsOf d.components (operationsBy listedMethods deletePets) listed ∧
        deletePetsSchema.fieldNames mutationName ≠
          (listed.filter (!·.isQuery)).map (·.fieldName) := by
  have hschema : schemaOf deletePets = .ok deletePetsSchema := by
    decide +kernel
  have hnot : ¬ ∀ p ∈ pathItems deletePets, InOrder p.2 := by
    decide +kernel
  obtain ⟨⟨d, _, listed, hdocument, -, hlisted, -, -, horder⟩, -⟩ := fieldNames_of_schemaOf hschema
  refine ⟨hschema, rfl, by decide +kernel, d, listed, hdocument, hlisted, ?_⟩
  exact fun heq => hnot (horder.mp heq)

end Generator

end ApiGraph
