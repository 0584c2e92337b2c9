import ApiGraph.Proofs.Engine.Compilation
import ApiGraph.Proofs.Generator.SchemaText

/-!
# Configurations of documents

A generator prints the schema of a document, reads the text back and walks over what it finds.  What
comes of it is the configuration that can be compiled from the endpoints at once: a root has the
fields of its endpoints, in order, and a field the arguments of its endpoint.

* `fieldsIn?_printedDocument`: only the roots give fields to the roots, whatever the types are
  called and in whichever order they are printed.
* `generate_eq_compiled`: every configuration that a generator gives is compiled from the endpoints.
-/

namespace ApiGraph.Generator

open ApiGraph.Engine
open ApiGraph.Generation
open ApiGraph.GraphQL hiding Schema
open ApiGraph.GraphQL.Sdl
open ApiGraph.OpenApi (Components Endpoint)

/-! ## Compiling endpoints -/

/-- What a resolver has to know of the field of an endpoint. -/
def endpointSignature (c : Components) (e : Endpoint) : Signature :=
  { name := e.fieldName, arguments := argumentNames c e }

/-- The fields of the roots: those of the endpoints that read and those of the others.  There is
always a field for queries. -/
def endpointSignatures (c : Components) (endpoints : List Endpoint) :
    Root → Option (List Signature)
  | .query =>
    let fields := (endpoints.filter (·.isQuery)).map (endpointSignature c)
    some (if fields.isEmpty then [{ name := "placeholder", arguments := [] }] else fields)
  | .mutation =>
    let fields := (endpoints.filter (!·.isQuery)).map (endpointSignature c)
    if fields.isEmpty then none else some fields

/-- The configuration for endpoints. -/
def compiled (c : Components) (endpoints : List Endpoint) (name url : String)
    (headers : List (String × String)) : Configuration :=
  .ofSignatures name url headers (endpointSignatures c endpoints)

/-! ## Roots in the text -/

/-- The fields of a root of the schema, if it has that root. -/
def rootFields? (roots : Roots) : Root → Option (List Field)
  | .query => some roots.queryFields
  | .mutation => if roots.mutation.isEmpty then none else some roots.mutation

/-- The fields that a printed type gives to a root. -/
def entryFields? (root : Root) (e : TypeEntry) : Option (List FieldDefinition) :=
  fieldsGiven? root (.plain e.definition)

theorem entryFields?_object (root : Root) (o : ObjectType) :
    entryFields? root (.object o) =
      if o.name = root.name then some (o.fields.map .ofField) else none :=
  rfl

theorem filterMap_printedDocument (root : Root) (s : GraphQL.Schema) :
    s.printedDocument.filterMap (fieldsGiven? root) =
      s.printedEntries.filterMap (entryFields? root) := by
  rw [Schema.printedDocument, List.filterMap_append, List.filterMap_map]
  exact List.append_nil _

theorem isHidden_rootName (root : Root) : isHidden root.name = false := by
  cases root <;> decide

theorem rootName_mem_fixedNames (root : Root) : root.name ∈ fixedNames := by
  cases root <;> decide

/-- A type that gives fields to a root has its name, so it is printed. -/
theorem filterMap_visible (root : Root) (es : List TypeEntry) :
    (es.filter fun e => !isHidden e.name).filterMap (entryFields? root) =
      es.filterMap (entryFields? root) := by
  rw [List.filterMap_filter]
  refine congrArg (List.filterMap · es) (funext fun e => ?_)
  cases e with
  | object o =>
    rw [entryFields?_object, TypeEntry.name]
    by_cases h : o.name = root.name
    · rw [h, isHidden_rootName, Bool.not_false, if_pos rfl]
    · rw [if_neg h, ite_self]
  | input i => exact ite_self _
  | json => exact ite_self _

/-- Types with other names give nothing to a root. -/
theorem filterMap_objects_eq_nil {root : Root} {os : List ObjectType}
    (h : ∀ o ∈ os, o.name ≠ root.name) :
    (os.map TypeEntry.object).filterMap (entryFields? root) = [] := by
  rw [List.filterMap_map, List.filterMap_eq_nil_iff]
  intro o ho
  exact if_neg (h o ho)

theorem filterMap_rootObjects (root : Root) (roots : Roots) :
    (roots.objects.map TypeEntry.object).filterMap (entryFields? root) =
      ((rootFields? roots root).map fun fields => fields.map .ofField).toList := by
  have hquery : ∀ o : ObjectType, o.name = queryName →
      entryFields? .query (.object o) = some (o.fields.map .ofField) ∧
        entryFields? .mutation (.object o) = none := by
    intro o ho
    rw [entryFields?_object, entryFields?_object, ho]
    exact ⟨if_pos rfl, if_neg (by decide)⟩
  have hmutation : ∀ o : ObjectType, o.name = mutationName →
      entryFields? .query (.object o) = none ∧
        entryFields? .mutation (.object o) = some (o.fields.map .ofField) := by
    intro o ho
    rw [entryFields?_object, entryFields?_object, ho]
    exact ⟨if_neg (by decide), if_pos rfl⟩
  rw [Roots.objects]
  cases hempty : roots.mutation.isEmpty <;> cases root <;>
    simp [rootFields?, hempty, hquery, hmutation]

/-- The types that give fields to a root, as they were registered. -/
theorem filterMap_entries {roots : Roots} {r : Registry} (h : r.Sound) (root : Root) :
    (assemble roots r).entries.filterMap (entryFields? root) =
      ((rootFields? roots root).map fun fields => fields.map .ofField).toList := by
  have hothers : ∀ o ∈ (finished r.objects).map (·.toObject), o.name ≠ root.name := by
    intro o ho heq
    obtain ⟨t, ht, rfl⟩ := List.mem_map.mp ho
    have hname : t.name = root.name := heq
    exact (h.finished .output t ht).name_free (hname ▸ rootName_mem_fixedNames root)
  have hinputs : ∀ is : List InputObject,
      (is.map TypeEntry.input).filterMap (entryFields? root) = [] := by
    intro is
    rw [List.filterMap_map, List.filterMap_eq_nil_iff]
    exact fun i _ => rfl
  have hjson : ∀ usesJson : Bool,
      (if usesJson then [TypeEntry.json] else []).filterMap (entryFields? root) = [] := by
    intro usesJson
    cases usesJson <;> rfl
  rw [Schema.entries, List.filterMap_append, List.filterMap_append, hinputs, hjson,
    objects_assemble, List.map_append, List.filterMap_append, filterMap_rootObjects,
    filterMap_objects_eq_nil hothers, List.append_nil, List.append_nil, List.append_nil]

theorem eq_of_perm_toList {α : Type} {o : Option α} {l : List α} (h : l.Perm o.toList) :
    l = o.toList := by
  cases o with
  | none => exact List.perm_nil.mp h
  | some a => exact List.perm_singleton.mp h

/-- What the text of a generated schema says about its roots. -/
theorem fieldsIn?_printedDocument {roots : Roots} {r : Registry} (h : r.Sound) (root : Root) :
    fieldsIn? root (assemble roots r).printedDocument =
      (rootFields? roots root).map fun fields => fields.map .ofField := by
  have hperm := (printedEntries_perm (assemble roots r)).filterMap (entryFields? root)
  rw [filterMap_visible, filterMap_entries h] at hperm
  rw [fieldsIn?, filterMap_printedDocument, eq_of_perm_toList hperm]
  cases rootFields? roots root with
  | none => rfl
  | some fields => exact congrArg some (List.append_nil _)

/-! ## Configurations from the text -/

/-- A resolver knows the names of a field. -/
def signatureOfNames (names : String × List String) : Signature :=
  { name := names.1, arguments := names.2 }

theorem signatureOf_ofField (f : Field) :
    signatureOf (.ofField f) = signatureOfNames (fieldNames f) := by
  rw [signatureOf, FieldDefinition.argumentNames, FieldDefinition.ofField, List.map_map]
  rfl

theorem signatures_of_names {c : Components} {fields : List Field} {endpoints : List Endpoint}
    (h : fields.map fieldNames = endpoints.map (endpointNames c)) :
    (fields.map FieldDefinition.ofField).map signatureOf =
      endpoints.map (endpointSignature c) := by
  calc (fields.map FieldDefinition.ofField).map signatureOf
      = fields.map (fun f => signatureOfNames (fieldNames f)) := by
        rw [List.map_map]
        exact List.map_congr_left fun f _ => signatureOf_ofField f
    _ = (fields.map fieldNames).map signatureOfNames := by rw [List.map_map]; rfl
    _ = endpoints.map (endpointSignature c) := by rw [h, List.map_map]; rfl

theorem signaturesIn?_printedDocument {c : Components} {components : List String}
    {endpoints : List Endpoint} {roots : Roots} {r : Registry}
    (h : MakesFields c {} endpoints (.start components) roots r) :
    signaturesIn? (assemble roots r).printedDocument = endpointSignatures c endpoints := by
  obtain ⟨hquery, hmutation⟩ := names_of_makesFields h
  have hqueries := signatures_of_names hquery
  have hmutations := signatures_of_names hmutation
  have hnoQuery := congrArg List.isEmpty hqueries
  have hnoMutation := congrArg List.isEmpty hmutations
  rw [List.isEmpty_map, List.isEmpty_map] at hnoQuery hnoMutation
  funext root
  rw [signaturesIn?, fieldsIn?_printedDocument (sound_of_makesFields h).1]
  cases root with
  | query =>
    rw [rootFields?, endpointSignatures, Roots.queryFields, ← hnoQuery, ← hqueries]
    cases roots.query.isEmpty <;> rfl
  | mutation =>
    rw [rootFields?, endpointSignatures, ← hnoMutation, ← hmutations]
    cases roots.mutation.isEmpty <;> rfl

/-! ## Sessions -/

/-- The sessions on a document: nothing is kept at first, whatever service is asked, and every step
may ask for the printed schema. -/
inductive Session.OnDocument (j : Json) : Session → Prop
  | fresh (service : Service) : OnDocument j { document := j, service }
  | next {s : Session} (h : OnDocument j s) : OnDocument j s.printedSchema.2

/-- A session keeps its document, and what it has kept is the printed schema of the document. -/
structure Session.Consistent (j : Json) (s : Session) : Prop where
  document : s.document = j
  schema : ∀ printed, s.schema = some printed →
    ∃ schema, schemaOf j = .ok schema ∧ PrintedSchema.ofSchema schema = .ok printed

theorem schemaOf_of_request {j : Json} {service : Service} {schema : GraphQL.Schema}
    (h : (service.request j).1 = .ok schema) : schemaOf j = .ok schema := by
  rw [Service.request] at h
  simp only at h
  split at h
  · exact mapError_eq_ok.mp h
  · exact nomatch h

/-- The step keeps the session consistent, and what it gives is the printed schema. -/
theorem Session.Consistent.printedSchema {j : Json} {s : Session} (h : s.Consistent j) :
    s.printedSchema.2.Consistent j ∧
      ∀ printed, s.printedSchema.1 = .ok printed →
        ∃ schema, schemaOf j = .ok schema ∧ PrintedSchema.ofSchema schema = .ok printed := by
  obtain ⟨hdocument, hschema⟩ := h
  unfold Session.printedSchema
  cases hkept : s.schema with
  | some kept =>
    refine ⟨⟨hdocument, hschema⟩, fun printed hprinted => hschema printed ?_⟩
    rw [hkept, Except.ok.inj hprinted]
  | none =>
    simp only
    cases hread : (s.service.request s.document).1.bind PrintedSchema.ofSchema with
    | error f => exact ⟨⟨hdocument, nofun⟩, nofun⟩
    | ok made =>
      rw [hdocument] at hread
      obtain ⟨schema, hanswer, hprinted⟩ := bind_eq_ok.mp hread
      have hmade : ∃ schema, schemaOf j = .ok schema ∧ PrintedSchema.ofSchema schema = .ok made :=
        ⟨schema, schemaOf_of_request hanswer, hprinted⟩
      refine ⟨⟨hdocument, fun printed heq => ?_⟩, fun printed heq => ?_⟩
      · rw [← Option.some.inj heq]
        exact hmade
      · rw [← Except.ok.inj heq]
        exact hmade

theorem Session.OnDocument.consistent {j : Json} {s : Session} (h : s.OnDocument j) :
    s.Consistent j := by
  induction h with
  | fresh service => exact ⟨rfl, nofun⟩
  | next _ ih => exact ih.printedSchema.1

/-- A generator that begins, with a service that refuses nothing, gives a configuration if there is
a schema and its text can be read. -/
theorem generate_fresh {j : Json} {schema : GraphQL.Schema} (h : schemaOf j = .ok schema)
    (hreadable : readable schema.descriptions = true) (name url : String)
    (headers : List (String × String)) :
    (({ document := j } : Session).generate name url headers).1 =
      .ok (configurationFor schema.printedDocument name url headers) := by
  have hprinted := ofSchema_of_printable (makes_of_schemaOf h).printable
  rw [hreadable, if_pos rfl] at hprinted
  have hanswer : ((({} : Service).request j).1.bind PrintedSchema.ofSchema) =
      .ok { schema, sdl := print schema, document := schema.printedDocument } := by
    rw [Service.request, h]
    exact hprinted
  unfold Session.generate Session.printedSchema
  simp only [hanswer]
  rfl

/-- A configuration that is generated comes from the text of the schema. -/
theorem configuration_of_generate {j : Json} {s : Session} (hs : s.OnDocument j) {name url : String}
    {headers : List (String × String)} {config : Configuration}
    (h : (s.generate name url headers).1 = .ok config) :
    ∃ schema, schemaOf j = .ok schema ∧
      config = configurationFor schema.printedDocument name url headers := by
  obtain ⟨printed, hprinted, rfl⟩ := map_eq_ok.mp h
  obtain ⟨schema, hschema, hread⟩ := hs.consistent.printedSchema.2 printed hprinted
  refine ⟨schema, hschema, ?_⟩
  rw [document_of_ofSchema (makes_of_schemaOf hschema).printable hread]

/-- Every configuration for a document is compiled from its endpoints. -/
theorem generate_eq_compiled {j : Json} {s : Session} (hs : s.OnDocument j) {name url : String}
    {headers : List (String × String)} {config : Configuration}
    (h : (s.generate name url headers).1 = .ok config) :
    ∃ d endpoints, documentOf j = .ok d ∧ d.endpoints = .ok endpoints ∧
      config = compiled d.components endpoints name url headers := by
  obtain ⟨schema, hschema, rfl⟩ := configuration_of_generate hs h
  obtain ⟨hdocument, hendpoints, hfields, _⟩ := makes_of_schemaOf hschema
  refine ⟨_, _, hdocument, hendpoints, ?_⟩
  rw [configurationFor_eq_ofSignatures, signaturesIn?_printedDocument hfields, compiled]

/-- A document with an operation that reads and one that writes. -/
def petDocument : Json :=
  .object [("openapi", .string "3.0.0"),
    ("info", .object [("title", .string "Pets"), ("version", .string "1")]),
    ("paths", .object [("/pets", .object [
      ("get", .object [("parameters", .array [.object [("name", .string "limit"),
          ("in", .string "query"), ("schema", .object [("type", .string "integer")])]]),
        ("responses", .object [])]),
      ("post", .object [("requestBody", .object [("content", .object [("application/json",
          .object [("schema", .object [("$ref", .string "#/components/schemas/Pet")])])])]),
        ("responses", .object [])])])]),
    ("components", .object [("schemas", .object [("Pet", .object [("type", .string "object"),
      ("properties", .object [("name", .object [("type", .string "string")])])])])])]

def petSchema : GraphQL.Schema :=
  { objects := [
      { name := "Query", fields := [{ name := "pets", type := .named "String"
                                      arguments := [{ name := "limit", type := .named "Int" }] }] },
      { name := "Mutation", fields := [{ name := "postPets", type := .named "String"
                                         arguments := [{ name := "petInput"
                                                         type := .named "PetInput" }] }] }]
    inputs := [{ name := "PetInput", fields := [{ name := "name", type := .named "String" }] }]
    usesJson := false
    hasMutation := true }

/-- A field of `petDocument` with its argument. -/
def petConfig (field argument : String) : Attribute :=
  .arguments { fields := [{ fieldName := field, arguments := [⟨argument, .fieldArgument, none⟩] }] }

def petConfiguration : Configuration :=
  { dataSources := [{ kind := .graphql, name := "pets", attributes := [.url "http://pets"] }]
    resolvers := [
      { typeName := "Query", dataSource := 0, fieldNames := ["pets"]
        attributes := [.url "http://pets", petConfig "pets" "limit"] },
      { typeName := "Mutation", dataSource := 0, fieldNames := ["postPets"]
        attributes := [.url "http://pets", petConfig "postPets" "petInput"] }]
    mappings := [] }

theorem schemaOf_petDocument : schemaOf petDocument = .ok petSchema := by
  decide +kernel

theorem generate_petDocument :
    (({ document := petDocument } : Session).generate "pets" "http://pets" []).1 =
      .ok petConfiguration := by
  have hconfiguration : configurationFor petSchema.printedDocument "pets" "http://pets" [] =
      petConfiguration := by decide +kernel
  rw [← hconfiguration]
  exact generate_fresh schemaOf_petDocument rfl "pets" "http://pets" []

theorem generate_pets :
    (({ document := petDocument } : Session).generate "pets" "http://pets" []).1 =
        .ok petConfiguration ∧
      ∃ d endpoints, documentOf petDocument = .ok d ∧ d.endpoints = .ok endpoints ∧
        petConfiguration = compiled d.components endpoints "pets" "http://pets" [] :=
  ⟨generate_petDocument, generate_eq_compiled (.fresh {}) generate_petDocument⟩

end ApiGraph.Generator
