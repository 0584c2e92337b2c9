import ApiGraph.Generator.Session
import ApiGraph.Proofs.Generation.Sound
import ApiGraph.Proofs.Sdl.RoundTrip

/-!
# Texts of generated schemas

The text of a generated schema is always a document as far as its names, types and arguments go.
Only its descriptions can be the reason why it is not read back, and then it is a single character
that stops all reading.
-/

namespace ApiGraph.Generator

open ApiGraph.Generation
open ApiGraph.GraphQL.Sdl (print readable read_print)

theorem ofSchema_of_printable {schema : GraphQL.Schema} (h : schema.Printable) :
    PrintedSchema.ofSchema schema =
      if readable schema.descriptions then
        .ok { schema, sdl := print schema, document := schema.printedDocument }
      else .error (.breakdown .unreadableText) := by
  rw [PrintedSchema.ofSchema, read_print h]
  cases readable schema.descriptions <;> rfl

/-- Whatever is read back for a generated schema is its document. -/
theorem document_of_ofSchema {schema : GraphQL.Schema} {printed : PrintedSchema}
    (hprintable : schema.Printable) (h : PrintedSchema.ofSchema schema = .ok printed) :
    printed.document = schema.printedDocument := by
  rw [ofSchema_of_printable hprintable] at h
  split at h
  · rw [← Except.ok.inj h]
  · exact nomatch h

/-- The text of a generated schema is read back exactly if all characters of all descriptions in it
may stand in a block string; otherwise the work breaks off. -/
theorem ofSchema_of_schemaOf {j : Json} {schema : GraphQL.Schema}
    (h : schemaOf j = .ok schema) :
    PrintedSchema.ofSchema schema =
      if readable schema.descriptions then
        .ok { schema, sdl := print schema, document := schema.printedDocument }
      else .error (.breakdown .unreadableText) :=
  ofSchema_of_printable (makes_of_schemaOf h).printable

/-- A document with one operation, which has this summary. -/
def summarised (summary : String) : Json :=
  .object [("openapi", .string "3.0.0"),
    ("info", .object [("title", .string "Pets"), ("version", .string "1")]),
    ("paths", .object [("/pets", .object [("get", .object [("summary", .string summary),
      ("responses", .object [])])])])]

/-- Its schema. -/
def summarisedSchema (summary : String) : GraphQL.Schema :=
  { objects := [{ name := "Query", fields :=
      [{ name := "pets", type := .named "String", description := some summary }] }]
    inputs := []
    usesJson := false
    hasMutation := false }

/-- A character behind `U+FFFF` in a summary is enough. -/
theorem ofSchema_paw_prints :
    schemaOf (summarised "🐾") = .ok (summarisedSchema "🐾") ∧
      PrintedSchema.ofSchema (summarisedSchema "🐾") =
        .error (.breakdown .unreadableText) := by
  have hschema : schemaOf (summarised "🐾") = .ok (summarisedSchema "🐾") := by
    decide +kernel
  have hread := ofSchema_of_schemaOf hschema
  have hnot : readable (summarisedSchema "🐾").descriptions = false := by decide +kernel
  rw [hnot] at hread
  exact ⟨hschema, hread⟩

end ApiGraph.Generator
