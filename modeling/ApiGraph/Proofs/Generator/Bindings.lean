import ApiGraph.Proofs.Engine.Binding
import ApiGraph.Proofs.Generation.Coverage
import ApiGraph.Proofs.Generator.Compiled

/-!
# Configurations in which every field is found

Nothing in a configuration keeps two fields, or two arguments of a field, from having the same name.
That they do not comes from the schema: its roots and the arguments of a field take new names only,
and the printed text says no more and no less than the schema.  So an engine finds for each field the
arguments that the schema declares for it.

* `MakesFields.nodup_arguments`: the arguments of a field have distinct names.
* `binds_rootFields`: the resolver for the fields of a root.
* `binds_generate`: every configuration that a generator gives.
-/

namespace ApiGraph.Generation

open ApiGraph.GraphQL hiding Schema
open ApiGraph.OpenApi (Components Endpoint EndpointParameter EndpointBody)

/-! ## Arguments of fields -/

variable {c : Components} {r r' : Registry} {base : String} {arguments arguments' : List InputValue}

/-- The arguments of each field of the roots have distinct names. -/
theorem MakesFields.nodup_arguments {endpoints : List Endpoint} {roots roots' : Roots}
    (hmakes : MakesFields c roots endpoints r roots' r')
    (h : ∀ f, f ∈ roots.query ∨ f ∈ roots.mutation → (f.arguments.map (·.name)).Nodup) :
    ∀ f, f ∈ roots'.query ∨ f ∈ roots'.mutation → (f.arguments.map (·.name)).Nodup := by
  induction hmakes with
  | nil => exact h
  | cons hfield _ _ ih =>
    refine ih fun g hg => ?_
    rcases mem_push.mp hg with hg | rfl
    · exact h g hg
    · exact hfield.nodup_arguments

end ApiGraph.Generation

namespace ApiGraph.Generator

open ApiGraph.Engine
open ApiGraph.Generation
open ApiGraph.GraphQL hiding Schema
open ApiGraph.GraphQL.Sdl
open ApiGraph.OpenApi (Components Endpoint)

variable {roots : Roots} {r : Registry} {root : Root} {fields : List Field}

/-- What a resolver has to know of a field of the schema. -/
def fieldSignature (f : Field) : Signature :=
  signatureOfNames (fieldNames f)

/-! ## Roots -/

/-- The signatures of a root in the text of a generated schema. -/
theorem signaturesIn?_eq_rootFields? (h : r.Sound) (root : Root) :
    signaturesIn? (assemble roots r).printedDocument root =
      (rootFields? roots root).map fun fields => fields.map fieldSignature := by
  have hsignatures : ∀ fields : List Field,
      (fields.map FieldDefinition.ofField).map signatureOf = fields.map fieldSignature := by
    intro fields
    rw [List.map_map]
    exact List.map_congr_left fun f _ => signatureOf_ofField f
  rw [signaturesIn?, fieldsIn?_printedDocument h, Option.map_map]
  exact congrArg (Option.map · _) (funext hsignatures)

/-- A root that has fields is an object type. -/
theorem rootObject_mem_objects (h : rootFields? roots root = some fields) :
    { name := root.name, fields } ∈ roots.objects := by
  cases root with
  | query =>
    obtain rfl := Option.some.inj h
    exact List.mem_cons_self
  | mutation =>
    rw [rootFields?] at h
    split at h
    · cases h
    · rename_i hsome
      obtain rfl := Option.some.inj h
      exact mutationObject_mem fun heq => hsome (List.isEmpty_iff.mpr heq)

/-- The fields of a root are made from endpoints, or there is the placeholder only. -/
theorem rootFields?_cases (h : rootFields? roots root = some fields) :
    fields = [placeholder] ∨ fields = roots.query ∨ fields = roots.mutation := by
  cases root with
  | query =>
    obtain rfl := Option.some.inj h
    rw [Roots.queryFields]
    cases roots.query.isEmpty with
    | true => exact Or.inl rfl
    | false => exact Or.inr (Or.inl rfl)
  | mutation =>
    rw [rootFields?] at h
    split at h
    · cases h
    · exact Or.inr (Or.inr (Option.some.inj h).symm)

/-- The fields of a root have distinct names, and so have the arguments of each. -/
theorem nodup_rootFields {c : Components} {components : List String} {endpoints : List Endpoint}
    (hmakes : MakesFields c {} endpoints (.start components) roots r)
    (h : rootFields? roots root = some fields) :
    (fields.map (·.name)).Nodup ∧ ∀ f ∈ fields, (f.arguments.map (·.name)).Nodup := by
  obtain ⟨hqueries, hmutations⟩ := hmakes.nodup ⟨List.nodup_nil, List.nodup_nil⟩
  have harguments := hmakes.nodup_arguments fun f hf => by
    rcases hf with hf | hf <;> exact absurd hf List.not_mem_nil
  rcases rootFields?_cases h with rfl | rfl | rfl
  · refine ⟨List.nodup_singleton _, List.forall_mem_singleton.mpr List.nodup_nil⟩
  · exact ⟨hqueries, fun f hf => harguments f (Or.inl hf)⟩
  · exact ⟨hmutations, fun f hf => harguments f (Or.inr hf)⟩

/-- The resolver of a root for the fields of the root. -/
theorem binds_rootFields {c : Components} {components : List String} {endpoints : List Endpoint}
    (hmakes : MakesFields c {} endpoints (.start components) roots r)
    (h : rootFields? roots root = some fields) (dataSource : Nat) (url : String) :
    (Resolver.ofSignatures root dataSource url (fields.map fieldSignature)).Binds
      (fields.map fieldSignature) := by
  obtain ⟨hnodup, harguments⟩ := nodup_rootFields hmakes h
  have hprintable := (sound_of_makesFields hmakes).2.objects _ (rootObject_mem_objects h)
  refine binds_ofSignatures ?_ ?_ ?_
  · rw [List.map_map]
    exact hnodup
  · exact List.forall_mem_map.mpr fun f hf => (hprintable.fields f hf).name
  · exact List.forall_mem_map.mpr harguments

/-! ## Configurations -/

/-- The resolvers of a configuration are those of the roots that have fields. -/
theorem mem_resolvers_iff (roots : Roots) (hsound : r.Sound) (name url : String)
    (headers : List (String × String)) (resolver : Resolver) :
    resolver ∈ (configurationFor (assemble roots r).printedDocument name url headers).resolvers ↔
      ∃ root fields, rootFields? roots root = some fields ∧
        Resolver.ofSignatures root 0 url (fields.map fieldSignature) = resolver := by
  have hroots : ∀ root, root ∈ [Root.query, Root.mutation] := by
    intro root
    cases root <;> decide
  rw [configurationFor_eq_ofSignatures, Configuration.ofSignatures]
  simp only [List.mem_filterMap, signaturesIn?_eq_rootFields? hsound, Option.map_map,
    Option.map_eq_some_iff, Function.comp_apply, hroots, true_and]

/-- In every configuration for a document there is a resolver for queries that has a field, and an
engine finds for each field of a resolver what the schema declares. -/
theorem binds_generate {j : Json} {s : Session} (hs : s.OnDocument j) {name url : String}
    {headers : List (String × String)} {config : Configuration}
    (h : (s.generate name url headers).1 = .ok config) :
    ∃ schema, schemaOf j = .ok schema ∧
      (∃ r ∈ config.resolvers, r.typeName = queryName ∧ r.fieldNames ≠ []) ∧
        ∀ r ∈ config.resolvers, ∃ o ∈ schema.objects,
          o.name = r.typeName ∧ r.Binds (o.fields.map fieldSignature) := by
  obtain ⟨schema, hschema, rfl⟩ := configuration_of_generate hs h
  cases makes_of_schemaOf hschema with
  | @mk _ _ roots r _ _ hmakes _ =>
    have hmem := mem_resolvers_iff roots (sound_of_makesFields hmakes).1 name url headers
    refine ⟨_, hschema, ?_, ?_⟩
    · refine ⟨_, (hmem _).mpr ⟨.query, _, rfl, rfl⟩, rfl, fun hnil => ?_⟩
      exact queryFields_ne_nil roots (List.map_eq_nil_iff.mp (List.map_eq_nil_iff.mp hnil))
    · intro resolver hresolver
      obtain ⟨root, fields, hfields, rfl⟩ := (hmem resolver).mp hresolver
      refine ⟨{ name := root.name, fields }, ?_, rfl, binds_rootFields hmakes hfields 0 url⟩
      rw [objects_assemble]
      exact List.mem_append_left _ (rootObject_mem_objects hfields)

theorem binds_pets :
    (({ document := petDocument } : Session).generate "pets" "http://pets" []).1 =
        .ok petConfiguration ∧
      ∃ schema, schemaOf petDocument = .ok schema ∧
        (∃ r ∈ petConfiguration.resolvers, r.typeName = queryName ∧ r.fieldNames ≠ []) ∧
          ∀ r ∈ petConfiguration.resolvers, ∃ o ∈ schema.objects,
            o.name = r.typeName ∧ r.Binds (o.fields.map fieldSignature) :=
  ⟨generate_petDocument, binds_generate (.fresh {}) generate_petDocument⟩

end ApiGraph.Generator
