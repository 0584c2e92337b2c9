import ApiGraph.Proofs.Generation.Coverage

/-!
# Documents with two fields of one name

* `duplicateField_iff`: which documents have no schema because two fields of one type would get the
  same name.
-/

namespace ApiGraph.Generation

/-- No two fields of one type get the same name in the schema of the document, if it is one. -/
def DistinctIn (j : Json) : Prop :=
  ∀ d endpoints, documentOf j = .ok d → d.endpoints = .ok endpoints →
    Distinct d.components endpoints

theorem distinctIn_of_schemaOf {j : Json} {schema : GraphQL.Schema} (h : schemaOf j = .ok schema) :
    DistinctIn j := by
  obtain ⟨hdocument, hendpoints, hfields, -⟩ := makes_of_schemaOf h
  intro d endpoints hd he
  obtain rfl := Except.ok.inj (hdocument.symm.trans hd)
  obtain rfl := Except.ok.inj (hendpoints.symm.trans he)
  exact hfields.distinct

theorem not_distinctIn_of_schemaOf {j : Json} (h : schemaOf j = .error (.duplicateField name)) :
    ¬ DistinctIn j := by
  intro hdistinct
  obtain ⟨d, endpoints, hdocument, hendpoints, hroots⟩ :=
    fault_of_schemaOf (fun _ => Fault.noConfusion) h
  exact not_distinct_of_rootFields hroots (hdistinct d endpoints hdocument hendpoints)

/-- If the types of a document come to an end and nothing else is wrong with it, it has a schema
exactly if no two fields of one type get the same name. -/
theorem duplicateField_iff {j : Json} (h : schemaOf j ≠ .error .unbounded) :
    (∃ name, schemaOf j = .error (.duplicateField name)) ↔
      ¬ DistinctIn j ∧ ∀ p, schemaOf j ≠ .error (.problem p) := by
  constructor
  · rintro ⟨name, hname⟩
    refine ⟨not_distinctIn_of_schemaOf hname, fun p hp => ?_⟩
    exact nomatch hname.symm.trans hp
  · rintro ⟨hdistinct, hproblem⟩
    cases hschema : schemaOf j with
    | ok schema => exact absurd (distinctIn_of_schemaOf hschema) hdistinct
    | error f =>
      cases f with
      | problem p => exact absurd hschema (hproblem p)
      | duplicateField name => exact ⟨name, rfl⟩
      | unbounded => exact absurd hschema h

/-- A document whose answer is an object with two properties that fold to `petId`. -/
def foldingDocument : Json :=
  .object [("openapi", .string "3.0.0"),
    ("info", .object [("title", .string "Pets"), ("version", .string "1")]),
    ("paths", .object [("/pets", .object [("get", .object [("responses", .object [("200",
      .object [("description", .string "All pets"), ("content", .object [("application/json",
        .object [("schema", .object [("type", .string "object"), ("properties", .object [
          ("pet_id", .object [("type", .string "string")]),
          ("petId", .object [("type", .string "string")])])])])])])])])])])]

theorem duplicateField_petId :
    schemaOf foldingDocument = .error (.duplicateField "petId") ∧ ¬ DistinctIn foldingDocument := by
  have hschema : schemaOf foldingDocument = .error (.duplicateField "petId") := by decide +kernel
  have hbounded : schemaOf foldingDocument ≠ .error .unbounded := by
    rw [hschema]
    exact nofun
  exact ⟨hschema, ((duplicateField_iff hbounded).mp ⟨"petId", hschema⟩).1⟩

end ApiGraph.Generation
