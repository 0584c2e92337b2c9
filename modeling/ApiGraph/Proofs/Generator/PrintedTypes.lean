import ApiGraph.Proofs.Generation.TypeNames
import ApiGraph.Proofs.Generator.Compiled

/-!
# What the text of a schema defines

When the text of a generated schema is read back, the document defines the types of the schema and
nothing else.  As no two types have the same name, every type that is printed has one definition:
there is no second one, for either kind of type, and none is extended.

* `describes_printedDocument`: the document of any schema without duplicate names does this.
* `describes_ofSchema`: so does whatever is read back for a generated schema.
-/

namespace ApiGraph.GraphQL.Sdl

open ApiGraph.Generation (filter_name_eq)

/-- The name of the type that is defined. -/
def TypeDefinition.name? : TypeDefinition → Option String
  | .schema => none
  | .scalar name | .object name _ | .interface name _ | .union name _ | .enum name _
  | .input name _ => some name

/-- The type that an entry of a document defines or extends. -/
def Definition.type? : Definition → Option TypeDefinition
  | .plain d | .extension d => some d
  | .directive _ => none

/-- Does the entry define or extend a type of the name? -/
def Definition.concerns (name : String) (d : Definition) : Bool :=
  d.type?.bind TypeDefinition.name? == some name

/-- The document defines the types of the schema, as far as they are printed. -/
structure Document.Describes (document : Document) (schema : Schema) : Prop where
  /-- The name of an object type is that of one definition, which has the same fields with the same
  arguments and types. -/
  objects : ∀ o ∈ schema.objects, isHidden o.name = false →
    document.filter (·.concerns o.name) = [.plain (.object o.name (o.fields.map .ofField))]
  /-- The same for the name of an input object type. -/
  inputs : ∀ i ∈ schema.inputs, isHidden i.name = false →
    document.filter (·.concerns i.name) = [.plain (.input i.name (i.fields.map .ofValue))]
  /-- Object types are defined by these definitions alone. -/
  objects_only : ∀ d ∈ document, ∀ name fields, d.type? = some (.object name fields) →
    ∃ o ∈ schema.objects, isHidden o.name = false ∧
      d = .plain (.object o.name (o.fields.map .ofField))
  /-- And so are input object types. -/
  inputs_only : ∀ d ∈ document, ∀ name fields, d.type? = some (.input name fields) →
    ∃ i ∈ schema.inputs, isHidden i.name = false ∧
      d = .plain (.input i.name (i.fields.map .ofValue))

theorem concerns_definition (e : TypeEntry) (name : String) :
    (Definition.plain e.definition).concerns name = (e.name == name) := by
  cases e <;> rfl

variable {s : Schema}

theorem names_entries (s : Schema) : s.entries.map TypeEntry.name = s.typeNames := by
  rw [Schema.entries, Schema.typeNames, List.map_append, List.map_append, List.map_map,
    List.map_map]
  cases s.usesJson <;> rfl

/-- A type that is printed is the only one of its name. -/
theorem filter_printedDocument (hnodup : s.typeNames.Nodup) {e : TypeEntry} (he : e ∈ s.entries)
    (hprinted : isHidden e.name = false) :
    s.printedDocument.filter (·.concerns e.name) = [.plain e.definition] := by
  rw [← names_entries] at hnodup
  have hentries : s.printedEntries.filter (fun f => f.name == e.name) = [e] := by
    have hperm := (printedEntries_perm s).filter fun f => f.name == e.name
    rw [List.filter_comm, filter_name_eq hnodup he, List.filter_cons, hprinted] at hperm
    exact List.perm_singleton.mp hperm
  have htail : ([.directive "include", .directive "skip", .plain .schema] : Document).filter
      (·.concerns e.name) = [] := rfl
  rw [Schema.printedDocument, List.filter_append, htail, List.append_nil, List.filter_map]
  have hconcerns : ((fun d : Definition => d.concerns e.name) ∘
      fun f : TypeEntry => Definition.plain f.definition) = fun f => f.name == e.name :=
    funext fun f => concerns_definition f e.name
  rw [hconcerns, hentries]
  rfl

/-- What defines or extends a type in the document is a type of the schema that is printed. -/
theorem exists_entry_of_mem {d : Definition} {type : TypeDefinition}
    (hd : d ∈ s.printedDocument) (htype : d.type? = some type) (hnamed : type ≠ .schema) :
    ∃ e ∈ s.entries, isHidden e.name = false ∧ e.definition = type ∧ d = .plain type := by
  rw [Schema.printedDocument] at hd
  rcases List.mem_append.mp hd with hd | hd
  · obtain ⟨e, he, rfl⟩ := List.mem_map.mp hd
    obtain ⟨hentry, hprinted⟩ := mem_printedEntries.mp he
    obtain rfl := Option.some.inj htype
    exact ⟨e, hentry, hprinted, rfl, rfl⟩
  · simp only [List.mem_cons, List.not_mem_nil, or_false] at hd
    rcases hd with rfl | rfl | rfl
    · exact absurd htype.symm (Option.some_ne_none type)
    · exact absurd htype.symm (Option.some_ne_none type)
    · exact absurd (Option.some.inj htype).symm hnamed

theorem mem_entries_object {o : ObjectType} : TypeEntry.object o ∈ s.entries ↔ o ∈ s.objects := by
  rw [Schema.entries]
  cases s.usesJson <;> simp

theorem mem_entries_input {i : InputObject} : TypeEntry.input i ∈ s.entries ↔ i ∈ s.inputs := by
  rw [Schema.entries]
  cases s.usesJson <;> simp

/-- The document of a schema in which no name is that of two types. -/
theorem describes_printedDocument (hnodup : s.typeNames.Nodup) : s.printedDocument.Describes s := by
  constructor
  case objects =>
    intro o ho hprinted
    exact filter_printedDocument hnodup (e := .object o) (mem_entries_object.mpr ho) hprinted
  case inputs =>
    intro i hi hprinted
    exact filter_printedDocument hnodup (e := .input i) (mem_entries_input.mpr hi) hprinted
  case objects_only =>
    intro d hd name fields htype
    obtain ⟨e, he, hprinted, heq, rfl⟩ := exists_entry_of_mem hd htype nofun
    cases e with
    | object o => exact ⟨o, mem_entries_object.mp he, hprinted, congrArg _ heq.symm⟩
    | input i => exact nomatch heq
    | json => exact nomatch heq
  case inputs_only =>
    intro d hd name fields htype
    obtain ⟨e, he, hprinted, heq, rfl⟩ := exists_entry_of_mem hd htype nofun
    cases e with
    | object o => exact nomatch heq
    | input i => exact ⟨i, mem_entries_input.mp he, hprinted, congrArg _ heq.symm⟩
    | json => exact nomatch heq

end ApiGraph.GraphQL.Sdl

namespace ApiGraph.Generator

open ApiGraph.Generation
open ApiGraph.GraphQL.Sdl

/-- When the text of a generated schema is read back, it defines the types of the schema and nothing
else. -/
theorem describes_ofSchema {j : Json} {schema : GraphQL.Schema} {printed : PrintedSchema}
    (hschema : schemaOf j = .ok schema) (hprinted : PrintedSchema.ofSchema schema = .ok printed) :
    printed.document.Describes schema := by
  have hmakes := makes_of_schemaOf hschema
  rw [document_of_ofSchema hmakes.printable hprinted]
  exact describes_printedDocument hmakes.nodup_typeNames

theorem describes_pets : schemaOf petDocument = .ok petSchema ∧
    ∃ printed, PrintedSchema.ofSchema petSchema = .ok printed ∧
      printed.document.Describes petSchema := by
  have hprinted := ofSchema_of_printable (makes_of_schemaOf schemaOf_petDocument).printable
  have hreadable : readable petSchema.descriptions = true := rfl
  rw [hreadable, if_pos rfl] at hprinted
  exact ⟨schemaOf_petDocument, _, hprinted, describes_ofSchema schemaOf_petDocument hprinted⟩

end ApiGraph.Generator
