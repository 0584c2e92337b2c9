import ApiGraph.Proofs.Generation.Closed
import ApiGraph.Proofs.Generator.PrintedTypes

/-!
# Which names the text of a schema mentions

The fields, arguments and input fields in a text mention the types that they are of.  A text is
closed if all of these are built-in scalars or defined in it.

Everything that a type of a generated schema refers to is in the schema.  But types whose names
begin with two underscores are not printed, and a type that is in a schema is reached from the
roots.  So somewhere on the way there is a printed type that mentions one that is not, and the text
is closed exactly if no type is left out.

* `mentions_printedDocument`, `defines_printedDocument`: what the text of any schema mentions and
  defines.
* `Registry.Closed.printedDocument_iff`: what a run has registered has a closed text exactly if all
  types are printed.
* `closed_printedDocument_iff`: which generated schemas have closed texts.
* `not_closed_foreign`: one that has not.
-/

namespace ApiGraph.GraphQL.Sdl

/-! ## Closed documents -/

/-- The names of the types of a field and of its arguments. -/
def FieldDefinition.mentions (f : FieldDefinition) : List String :=
  f.type.leaf :: f.arguments.map (·.type.leaf)

/-- The names of the types of all fields, arguments and input fields. -/
def TypeDefinition.mentions : TypeDefinition → List String
  | .object _ fields | .interface _ fields => fields.flatMap (·.mentions)
  | .input _ fields => fields.map (·.type.leaf)
  | .schema | .scalar _ | .union _ _ | .enum _ _ => []

/-- A field, an argument or an input field in the document is of a type with the name. -/
def Document.Mentions (document : Document) (name : String) : Prop :=
  ∃ d ∈ document, ∃ type, d.type? = some type ∧ name ∈ type.mentions

/-- The document defines a type of the name. -/
def Document.Defines (document : Document) (name : String) : Prop :=
  ∃ type, Definition.plain type ∈ document ∧ type.name? = some name

/-- What the document mentions is built in or defined in it. -/
def Document.Closed (document : Document) : Prop :=
  ∀ name, document.Mentions name → name ∈ builtinScalars ∨ document.Defines name

variable {s : Schema} {name : String}

theorem name?_definition (e : TypeEntry) : e.definition.name? = some e.name := by
  cases e <;> rfl

theorem mentions_printedDocument :
    s.printedDocument.Mentions name ↔
      ∃ e ∈ s.entries, isHidden e.name = false ∧ name ∈ e.definition.mentions := by
  constructor
  · rintro ⟨d, hd, type, htype, hname⟩
    have hnamed : type ≠ .schema := by
      rintro rfl
      exact absurd hname List.not_mem_nil
    obtain ⟨e, he, hprinted, rfl, -⟩ := exists_entry_of_mem hd htype hnamed
    exact ⟨e, he, hprinted, hname⟩
  · rintro ⟨e, he, hprinted, hname⟩
    refine ⟨.plain e.definition, ?_, e.definition, rfl, hname⟩
    exact List.mem_append_left _ (List.mem_map_of_mem (mem_printedEntries.mpr ⟨he, hprinted⟩))

theorem defines_printedDocument :
    s.printedDocument.Defines name ↔ name ∈ s.typeNames ∧ isHidden name = false := by
  rw [← names_entries]
  constructor
  · rintro ⟨type, htype, hname⟩
    have hnamed : type ≠ .schema := by
      rintro rfl
      exact nomatch hname
    obtain ⟨e, he, hprinted, rfl, -⟩ := exists_entry_of_mem htype rfl hnamed
    obtain rfl := Option.some.inj ((name?_definition e).symm.trans hname)
    exact ⟨List.mem_map_of_mem he, hprinted⟩
  · rintro ⟨hname, hprinted⟩
    obtain ⟨e, he, rfl⟩ := List.mem_map.mp hname
    refine ⟨e.definition, ?_, name?_definition e⟩
    exact List.mem_append_left _ (List.mem_map_of_mem (mem_printedEntries.mpr ⟨he, hprinted⟩))

theorem isHidden_of_mem_builtinScalars (h : name ∈ builtinScalars) : isHidden name = false := by
  have hall : ∀ name ∈ builtinScalars, isHidden name = false := by decide
  exact hall name h

end ApiGraph.GraphQL.Sdl

namespace ApiGraph.Generation

open ApiGraph.GraphQL hiding Schema
open ApiGraph.GraphQL.Sdl
open ApiGraph.OpenApi (Components Endpoint)

/-! ## What the types of a registry mention -/

/-- A finished type of the position, as it is printed. -/
def Composite.entry (t : Composite) : Position → TypeEntry
  | .output => .object t.toObject
  | .input => .input t.toInput

theorem name_entry (t : Composite) (position : Position) : (t.entry position).name = t.name := by
  cases position <;> rfl

theorem mem_mentions_entry {t : Composite} {position : Position} {name : String} :
    name ∈ (t.entry position).definition.mentions ↔ ∃ m ∈ t.members, m.type.leaf = name := by
  cases position with
  | output =>
    simp [Composite.entry, TypeEntry.definition, TypeDefinition.mentions, Composite.toObject,
      FieldDefinition.ofField, FieldDefinition.mentions, eq_comm]
  | input =>
    simp [Composite.entry, TypeEntry.definition, TypeDefinition.mentions, Composite.toInput,
      InputDefinition.ofValue]

/-- A field mentions what it refers to, in one position or the other. -/
theorem mem_mentions_field {f : Field} {name : String} :
    name ∈ (FieldDefinition.ofField f).mentions ↔ ∃ position, FieldUses f position name := by
  constructor
  · intro hname
    rcases List.mem_cons.mp hname with rfl | hname
    · exact ⟨.output, Or.inl ⟨rfl, f.type, List.mem_singleton_self _, rfl⟩⟩
    · obtain ⟨v, hv, rfl⟩ := List.mem_map.mp hname
      obtain ⟨a, ha, rfl⟩ := List.mem_map.mp hv
      exact ⟨.input, Or.inr ⟨rfl, a.type, List.mem_map_of_mem ha, rfl⟩⟩
  · rintro ⟨position, ⟨-, type, htype, rfl⟩ | ⟨-, type, htype, rfl⟩⟩
    · rw [List.mem_singleton.mp htype]
      exact List.mem_cons_self ..
    · obtain ⟨a, ha, rfl⟩ := List.mem_map.mp htype
      exact List.mem_cons_of_mem _
        (List.mem_map.mpr ⟨_, List.mem_map_of_mem ha, rfl⟩)

theorem mem_mentions_object {o : ObjectType} {name : String} :
    name ∈ (TypeEntry.object o).definition.mentions ↔
      ∃ f ∈ o.fields, ∃ position, FieldUses f position name := by
  simp only [TypeEntry.definition, TypeDefinition.mentions, List.mem_flatMap, List.mem_map,
    exists_exists_and_eq_and, mem_mentions_field]

variable {roots : Roots} {r : Registry} {fields : List Field} {name : String}

theorem entry_mem_entries {position : Position} {t : Composite}
    (h : t ∈ finished (r.types position)) : t.entry position ∈ (assemble roots r).entries := by
  cases position with
  | output =>
    refine mem_entries_object.mpr ?_
    rw [objects_assemble]
    exact List.mem_append_right _ (List.mem_map_of_mem h)
  | input => exact mem_entries_input.mpr (List.mem_map_of_mem h)

/-- The types of a schema are its roots, those that are registered, and `JSON`. -/
theorem entries_assemble {e : TypeEntry} (h : e ∈ (assemble roots r).entries) :
    (∃ o ∈ roots.objects, e = .object o) ∨
      (∃ position, ∃ t ∈ finished (r.types position), e = t.entry position) ∨ e = .json := by
  cases e with
  | object o =>
    have ho := mem_entries_object.mp h
    rw [objects_assemble] at ho
    rcases List.mem_append.mp ho with ho | ho
    · exact Or.inl ⟨o, ho, rfl⟩
    · obtain ⟨t, ht, rfl⟩ := List.mem_map.mp ho
      exact Or.inr (Or.inl ⟨.output, t, ht, rfl⟩)
  | input i =>
    obtain ⟨t, ht, rfl⟩ := List.mem_map.mp (mem_entries_input.mp h)
    exact Or.inr (Or.inl ⟨.input, t, ht, rfl⟩)
  | json => exact Or.inr (Or.inr rfl)

/-- The fields of the roots are these. -/
def Roots.Holds (roots : Roots) (fields : List Field) : Prop :=
  ∀ f, f ∈ fields ↔ f ∈ roots.query ∨ f ∈ roots.mutation

theorem Roots.Holds.push (h : roots.Holds fields) (e : Endpoint) (f : Field) :
    (roots.push e f).Holds (fields ++ [f]) := by
  intro g
  rw [List.mem_append, h g, List.mem_singleton]
  exact mem_push.symm

/-- A field of a root object is one of these, or the placeholder. -/
theorem Roots.Holds.mem_of_mem_objects (h : roots.Holds fields) {o : ObjectType}
    (ho : o ∈ roots.objects) {f : Field} (hf : f ∈ o.fields) : f ∈ fields ∨ f = placeholder := by
  rcases List.mem_cons.mp ho with rfl | ho
  · unfold Roots.queryFields at hf
    split at hf
    · exact Or.inr (List.mem_singleton.mp hf)
    · exact Or.inl ((h f).mpr (Or.inl hf))
  · split at ho
    · exact absurd ho List.not_mem_nil
    · rw [List.mem_singleton.mp ho] at hf
      exact Or.inl ((h f).mpr (Or.inr hf))

/-- Each of these is a field of a root object. -/
theorem Roots.Holds.exists_object (h : roots.Holds fields) {f : Field} (hf : f ∈ fields) :
    ∃ o ∈ roots.objects, f ∈ o.fields := by
  rcases (h f).mp hf with hf | hf
  · exact ⟨_, queryObject_mem (List.ne_nil_of_mem hf), hf⟩
  · exact ⟨_, mutationObject_mem (List.ne_nil_of_mem hf), hf⟩

theorem isHidden_of_mem_fixedNames (h : name ∈ fixedNames) : isHidden name = false := by
  have hall : ∀ name ∈ fixedNames, isHidden name = false := by decide
  exact hall name h

theorem isHidden_rootObject {o : ObjectType} (ho : o ∈ roots.objects) : isHidden o.name = false :=
  isHidden_of_mem_fixedNames
    (List.mem_append_left [jsonName] (rootNames_subset roots (List.mem_map_of_mem ho)))

namespace Registry.Closed

variable (h : r.Closed fields)
include h

theorem mem_finishedNames {position : Position} (hname : name ∈ (r.types position).keys) :
    name ∈ r.finishedNames position := by
  obtain ⟨e, he, rfl⟩ := List.mem_map.mp hname
  obtain ⟨t, ht, htname, -⟩ := h.finished position e he
  rw [← htname]
  exact List.mem_map_of_mem (List.mem_filterMap.mpr ⟨e, he, ht⟩)

/-- What is on offer is built in or in the schema. -/
theorem mem_of_offers {position : Position} (hoffers : r.Offers position name) :
    name ∈ builtinScalars ∨ name ∈ (assemble roots r).typeNames := by
  have hscalars : ∀ name ∈ scalarNames, name ∈ builtinScalars := by decide
  rcases hoffers with hscalar | ⟨rfl, huses⟩ | hkey
  · exact Or.inl (hscalars name hscalar)
  · refine Or.inr (List.mem_append_right _ ?_)
    rw [show (assemble roots r).usesJson = true from huses]
    exact List.mem_singleton_self jsonName
  · exact Or.inr (mem_typeNames_of_mem_finishedNames (h.mem_finishedNames hkey))

/-- What the types of the schema mention is built in or in the schema. -/
theorem mem_of_mentions (hroots : roots.Holds fields) {e : TypeEntry}
    (he : e ∈ (assemble roots r).entries) (hname : name ∈ e.definition.mentions) :
    name ∈ builtinScalars ∨ name ∈ (assemble roots r).typeNames := by
  rcases entries_assemble he with ⟨o, ho, rfl⟩ | ⟨position, t, ht, rfl⟩ | rfl
  · obtain ⟨f, hf, position, huses⟩ := mem_mentions_object.mp hname
    rcases hroots.mem_of_mem_objects ho hf with hf | rfl
    · exact h.mem_of_offers (h.fields_offered position name ⟨f, hf, huses⟩)
    · rcases huses with ⟨-, type, htype, rfl⟩ | ⟨-, type, htype, -⟩
      · rw [List.mem_singleton.mp htype]
        exact Or.inl (by decide)
      · exact absurd htype List.not_mem_nil
  · obtain ⟨m, hm, rfl⟩ := mem_mentions_entry.mp hname
    obtain ⟨e, he, het⟩ := mem_finished ht
    exact h.mem_of_offers (h.members_offered position e he t het m hm)
  · exact absurd hname List.not_mem_nil

/-- What is needed is mentioned, unless something that is mentioned is not printed. -/
theorem mentions_of_used (hroots : roots.Holds fields) {position : Position}
    (hused : Used (FieldsUse fields) r position name) :
    (∃ hidden, (assemble roots r).printedDocument.Mentions hidden ∧ isHidden hidden = true) ∨
      (assemble roots r).printedDocument.Mentions name := by
  obtain ⟨root, ⟨f, hf, huses⟩, hreaches⟩ := hused
  induction hreaches with
  | refl =>
    obtain ⟨o, ho, hfo⟩ := hroots.exists_object hf
    refine Or.inr (mentions_printedDocument.mpr ⟨.object o, ?_, isHidden_rootObject ho, ?_⟩)
    · refine mem_entries_object.mpr ?_
      rw [objects_assemble]
      exact List.mem_append_left _ ho
    · exact mem_mentions_object.mpr ⟨f, hfo, position, huses⟩
  | @tail a b _ hrefers ih =>
    refine ih.elim Or.inl fun hmentions => ?_
    cases ha : isHidden a with
    | true => exact Or.inl ⟨a, hmentions, ha⟩
    | false =>
      obtain ⟨t, ht, m, hm, rfl⟩ := hrefers
      obtain ⟨t', ht', hname, -⟩ := h.finished position _ (Dictionary.mem_of_get? ht)
      obtain rfl := Option.some.inj ht'
      refine Or.inr (mentions_printedDocument.mpr ⟨t.entry position,
        entry_mem_entries (mem_finished_of_registered? ht), ?_,
        mem_mentions_entry.mpr ⟨m, hm, rfl⟩⟩)
      rw [name_entry, hname]
      exact ha

/-- The text is closed exactly if all types are printed. -/
theorem printedDocument_iff (hroots : roots.Holds fields) :
    (assemble roots r).printedDocument.Closed ↔
      ∀ name ∈ (assemble roots r).typeNames, isHidden name = false := by
  constructor
  · intro hclosed name hname
    by_contra hhidden
    have hprinted : ∀ mentioned, (assemble roots r).printedDocument.Mentions mentioned →
        isHidden mentioned = false := fun mentioned hmentions =>
      (hclosed mentioned hmentions).elim isHidden_of_mem_builtinScalars fun hdefines =>
        (defines_printedDocument.mp hdefines).2
    -- A type that is not printed is one that is registered, and so it is needed.
    obtain ⟨position, hfinished⟩ :=
      exists_mem_finishedNames hname fun hmem => hhidden (isHidden_of_mem_fixedNames hmem)
    obtain ⟨t, ht, rfl⟩ := List.mem_map.mp hfinished
    obtain ⟨e, he, het⟩ := mem_finished ht
    obtain ⟨t', ht', hname', -⟩ := h.finished position e he
    obtain rfl := Option.some.inj (het.symm.trans ht')
    have hused := h.needed position t.name (hname' ▸ List.mem_map_of_mem he)
    rcases h.mentions_of_used hroots hused with ⟨hidden, hmentions, hnot⟩ | hmentions
    · exact Bool.false_ne_true ((hprinted hidden hmentions).symm.trans hnot)
    · exact hhidden (hprinted t.name hmentions)
  · intro hprinted name hmentions
    obtain ⟨e, he, -, hname⟩ := mentions_printedDocument.mp hmentions
    refine (h.mem_of_mentions hroots he hname).imp_right fun hname => ?_
    exact defines_printedDocument.mpr ⟨hname, hprinted name hname⟩

end Registry.Closed

/-! ## Generated schemas -/

/-- The fields of the roots come from a run. -/
theorem Run.of_rootFields {c : Components} {endpoints : List Endpoint} {roots' : Roots}
    {r' : Registry} (h : Run c fields r) (hholds : roots.Holds fields)
    (hroots : rootFields c roots endpoints r = .ok (roots', r')) :
    ∃ fields', Run c fields' r' ∧ roots'.Holds fields' := by
  induction endpoints generalizing roots r fields with
  | nil =>
    obtain ⟨rfl, rfl⟩ := Prod.mk.inj (Except.ok.inj hroots)
    exact ⟨fields, h, hholds⟩
  | cons e rest ih =>
    obtain ⟨⟨f, r₁⟩, hfield, hroots⟩ := bind_eq_ok.mp hroots
    obtain ⟨_, hadd, hroots⟩ := bind_eq_ok.mp hroots
    obtain ⟨-, rfl⟩ := add_eq_ok.mp hadd
    exact ih (h.next hfield) (hholds.push e f) hroots

end ApiGraph.Generation

namespace ApiGraph.Generator

open ApiGraph.Generation
open ApiGraph.GraphQL.Sdl

/-- The text of a generated schema reads as its document, as far as it can be read, and this is
closed exactly if none of the types has a name that begins with two underscores. -/
theorem closed_printedDocument_iff {j : Json} {schema : GraphQL.Schema}
    (h : schemaOf j = .ok schema) :
    Document.read (print schema) =
        (if readable schema.descriptions then .ok schema.printedDocument else .error .unreadable) ∧
      (schema.printedDocument.Closed ↔ ∀ name ∈ schema.typeNames, isHidden name = false) := by
  refine ⟨read_print (makes_of_schemaOf h).printable, ?_⟩
  obtain ⟨d, endpoints, roots, r, -, -, hroots, rfl, -⟩ := rootFields_of_schemaOf h
  have hstart : ({} : Roots).Holds [] := fun f => by simp
  obtain ⟨fields, hrun, hholds⟩ := Run.of_rootFields .start hstart hroots
  exact hrun.closed.printedDocument_iff hholds

/-- A document with a component whose name has no character of GraphQL names. -/
def foreignDocument : Json :=
  .object [("openapi", .string "3.0.0"),
    ("info", .object [("title", .string "Pets"), ("version", .string "1")]),
    ("paths", .object [("/pets", .object [("get", .object [("responses", .object [("200",
      .object [("description", .string "All pets"), ("content",
        .object [("application/json", .object [("schema",
          .object [("$ref", .string "#/components/schemas/名前")])])])])])])])]),
    ("components", .object [("schemas", .object [("名前", .object [("type", .string "object"),
      ("properties", .object [("name", .object [("type", .string "string")])])])])])]

/-- The type of the component is called `__`. -/
def foreignSchema : GraphQL.Schema :=
  { objects := [
      { name := "Query", fields := [{ name := "pets", type := .named "__" }] },
      { name := "__", fields := [{ name := "name", type := .named "String" }] }]
    inputs := []
    usesJson := false
    hasMutation := false }

theorem not_closed_foreign :
    schemaOf foreignDocument = .ok foreignSchema ∧
      Document.read (print foreignSchema) = .ok foreignSchema.printedDocument ∧
        ¬ foreignSchema.printedDocument.Closed := by
  have hschema : schemaOf foreignDocument = .ok foreignSchema := by decide +kernel
  obtain ⟨hread, hiff⟩ := closed_printedDocument_iff hschema
  refine ⟨hschema, hread, fun hclosed => ?_⟩
  have hprinted := hiff.mp hclosed "__" (by decide)
  exact absurd hprinted (by decide)

end ApiGraph.Generator
