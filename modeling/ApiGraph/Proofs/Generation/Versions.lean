import ApiGraph.Proofs.Generation.Places
import ApiGraph.Proofs.Generation.Problems
import ApiGraph.Yaml.Reader

/-!
# Versions that are numbers

The version of a document is looked at twice.  It is first taken as a text, whatever value it is,
to see whether it is a version of OpenAPI 3; then the document is read, and has to have a string
there.  A version such as `3.1` that is written without quotes passes the first look and fails the
second one.

* `exists_version_of_read?`: in a document that can be read the version is a string.
* `read?_withVersion`: which string it is does not matter.
* `schemaOfDocument_ne_notJson`: a document that was read is never reported to be unreadable.
* `numbered_outcome`: the number and its text as a string have the same outcome if the value is no
  document anyway, and only then.
-/

namespace ApiGraph

/-! ## Values with another version -/

/-- The value with the version in place of the one it has, if it is an object. -/
def Json.withVersion (j version : Json) : Json :=
  match j with
  | .object members => .object (Dictionary.put members "openapi" version)
  | j => j

theorem Json.member?_withVersion_of_ne {key : String} (h : key ≠ "openapi") (j version : Json) :
    (j.withVersion version).member? key = j.member? key := by
  cases j with
  | object members => exact (Dictionary.get?_put ..).trans (if_neg h.symm)
  | null | bool _ | number _ | string _ | array _ => rfl

theorem Json.member?_withVersion_object (members : List (String × Json)) (version : Json) :
    ((Json.object members).withVersion version).member? "openapi" = some version :=
  (Dictionary.get?_put ..).trans (if_pos rfl)

theorem Json.depthOfMembers_put {v w : Json} (h : v.depth = w.depth) (key : String)
    (members : List (String × Json)) :
    depthOfMembers (Dictionary.put members key v) =
      depthOfMembers (Dictionary.put members key w) := by
  induction members with
  | nil => simp only [Dictionary.put, depthOfMembers, h]
  | cons p rest ih =>
    obtain ⟨k, value⟩ := p
    by_cases hk : k = key
    · simp only [Dictionary.put, hk, beq_self_eq_true, if_true, depthOfMembers, h]
    · simp only [Dictionary.put, beq_iff_eq, hk, if_false, depthOfMembers, ih]

theorem Json.depth_withVersion (j : Json) (v w : String) :
    (j.withVersion (.string v)).depth = (j.withVersion (.string w)).depth := by
  cases j with
  | object members =>
    have h : (Json.string v).depth = (Json.string w).depth := rfl
    exact congrArg (· + 1) (depthOfMembers_put h "openapi" members)
  | null | bool _ | number _ | string _ | array _ => rfl

namespace OpenApi

/-! ## Reading -/

/-- Whether fields fit depends on the members under their keys alone. -/
theorem Shape.fieldsFit_congr {partFits : Part → Json → Bool}
    {fields : List (String × Presence × Shape)} {a b : Json}
    (h : ∀ f ∈ fields, a.member? f.1 = b.member? f.1) :
    fieldsFit partFits fields a = fieldsFit partFits fields b := by
  induction fields with
  | nil => rfl
  | cons f fields ih =>
    obtain ⟨key, presence, shape⟩ := f
    obtain ⟨hhead, htail⟩ := List.forall_mem_cons.mp h
    rw [fieldsFit, fieldsFit, hhead, ih htail]

/-- The version is one field of a document, and no other field has its key. -/
theorem Model.document_eq :
    ∃ others, Model.document = .record (("openapi", .required, .text) :: others) ∧
      ∀ f ∈ others, f.1 ≠ "openapi" :=
  ⟨_, rfl, by simp⟩

/-- In a document that can be read the version is a string. -/
theorem exists_version_of_read? {j : Json} {d : Document} (h : Document.read? j = some d) :
    ∃ version, j.member? "openapi" = some (.string version) := by
  obtain ⟨others, hdocument, -⟩ := Model.document_eq
  have hfits : Model.fits j = true := by
    by_contra hfits
    rw [Document.read?, if_neg hfits] at h
    exact nomatch h
  rw [Model.fits, hdocument, Shape.fitsWith, Shape.fieldsFit] at hfits
  simp only [Bool.and_eq_true] at hfits
  obtain ⟨-, hversion, -⟩ := hfits
  cases hmember : j.member? "openapi" with
  | none =>
    rw [hmember] at hversion
    exact nomatch hversion
  | some version =>
    rw [hmember] at hversion
    cases version with
    | string version => exact ⟨version, rfl⟩
    | null | bool _ | number _ | array _ | object _ => exact nomatch hversion

theorem read?_withVersion_number (j : Json) (n : Json.Number) :
    Document.read? (j.withVersion (.number n)) = none := by
  rw [Option.eq_none_iff_forall_not_mem]
  intro d hd
  obtain ⟨version, hversion⟩ := exists_version_of_read? hd
  cases j with
  | object members =>
    rw [Json.member?_withVersion_object] at hversion
    exact nomatch hversion
  | null | bool _ | number _ | string _ | array _ => exact nomatch hversion

theorem Model.fits_withVersion (j : Json) (v w : String) :
    Model.fits (j.withVersion (.string v)) = Model.fits (j.withVersion (.string w)) := by
  obtain ⟨others, hdocument, hothers⟩ := Model.document_eq
  cases j with
  | object members =>
    have hrest (f) (hf : f ∈ others) :
        ((Json.object members).withVersion (.string v)).member? f.1 =
          ((Json.object members).withVersion (.string w)).member? f.1 := by
      rw [Json.member?_withVersion_of_ne (hothers f hf),
        Json.member?_withVersion_of_ne (hothers f hf)]
    rw [Model.fits, Model.fits, Json.depth_withVersion _ v w, hdocument, Shape.fitsWith,
      Shape.fitsWith, Shape.fieldsFit, Shape.fieldsFit, Json.member?_withVersion_object,
      Json.member?_withVersion_object, Shape.fieldsFit_congr hrest]
    rfl
  | null | bool _ | number _ | string _ | array _ => rfl

theorem Reader.document_withVersion (j version : Json) :
    Reader.document (j.withVersion version) = Reader.document j := by
  have hpaths : Reader.membersAt (j.withVersion version) "paths" = Reader.membersAt j "paths" := by
    rw [Reader.membersAt, Reader.membersAt, Json.member?_withVersion_of_ne (by decide)]
  have hcomponents :
      Reader.member? (j.withVersion version) "components" = Reader.member? j "components" := by
    rw [Reader.member?, Reader.member?, Json.member?_withVersion_of_ne (by decide)]
  rw [Reader.document, Reader.document, hpaths, hcomponents]

/-- A document is read alike under all versions that are strings. -/
theorem read?_withVersion (j : Json) (v w : String) :
    Document.read? (j.withVersion (.string v)) = Document.read? (j.withVersion (.string w)) := by
  rw [Document.read?, Document.read?, Model.fits_withVersion j v w, Reader.document_withVersion,
    Reader.document_withVersion]

end OpenApi

namespace Generation

open ApiGraph.OpenApi (Document)

/-! ## Documents -/

/-- A document that was read is never reported to be unreadable. -/
theorem schemaOfDocument_ne_notJson (d : Document) :
    schemaOfDocument d ≠ .error (.problem .notJson) := by
  intro h
  rcases (reports_schemaOfDocument d).of_error _ h with hfield | ⟨_, hinvalid⟩
  · obtain ⟨⟨⟨⟩⟩⟩ := hfield
  · exact nomatch hinvalid

/-- Does the value count as a version of OpenAPI 3 at the first look? -/
def IsSupported (version : Json) : Prop :=
  "3.".toList.isPrefixOf (versionText version).toList = true

instance (version : Json) : Decidable (IsSupported version) :=
  inferInstanceAs (Decidable (_ = true))

/-- The version as a string. -/
def quoted (version : Json) : Json :=
  .string (versionText version)

/-- What comes after the first look at the version: the document is read, and worked on. -/
def schemaOfReading (j : Json) : Except Fault GraphQL.Schema :=
  match Document.read? j with
  | some d => schemaOfDocument d
  | none => .error (.problem .notJson)

theorem schemaOf_of_isSupported {j version : Json} (hswagger : j.member? "swagger" = none)
    (hversion : j.member? "openapi" = some version) (h : IsSupported version) :
    schemaOf j = schemaOfReading j := by
  have hsupported : "3.".toList.isPrefixOf (versionText version).toList = true := h
  rw [schemaOf, documentOf, hswagger, hversion]
  simp only [hsupported, if_true]
  rw [schemaOfReading]
  cases Document.read? j with
  | none => rfl
  | some d => rfl

/-- Documents of an older version are refused, whatever else they say. -/
theorem schemaOf_of_swagger {j swagger : Json} (h : j.member? "swagger" = some swagger) :
    schemaOf j = .error (.problem (.unsupportedVersion (versionText swagger))) := by
  rw [schemaOf, documentOf, h]
  rfl

theorem schemaOf_withVersion_of_swagger {j swagger : Json}
    (h : j.member? "swagger" = some swagger) (v w : Json) :
    schemaOf (j.withVersion v) = schemaOf (j.withVersion w) := by
  have hkept (version : Json) : (j.withVersion version).member? "swagger" = some swagger :=
    (Json.member?_withVersion_of_ne (by decide) j version).trans h
  rw [schemaOf_of_swagger (hkept v), schemaOf_of_swagger (hkept w)]

/-! ## Numbers and strings -/

section Outcome

variable {members : List (String × Json)} {version : Json}
  (hswagger : (Json.object members).member? "swagger" = none) (h : IsSupported version)
include hswagger h

theorem schemaOf_withVersion :
    schemaOf ((Json.object members).withVersion version) =
      schemaOfReading ((Json.object members).withVersion version) := by
  refine schemaOf_of_isSupported ?_ (Json.member?_withVersion_object members version) h
  rw [Json.member?_withVersion_of_ne (by decide), hswagger]

/-- All versions of OpenAPI 3 have the same outcome as long as they are strings. -/
theorem schemaOf_withVersion_string {text : String} (htext : IsSupported (.string text)) :
    schemaOf ((Json.object members).withVersion (.string text)) =
      schemaOf ((Json.object members).withVersion (quoted version)) := by
  have hquoted : IsSupported (quoted version) := h
  rw [schemaOf_withVersion hswagger htext, schemaOf_withVersion hswagger hquoted, schemaOfReading,
    schemaOfReading, quoted, OpenApi.read?_withVersion _ text]

end Outcome

/-- What becomes of a value whose version is a number, and of the value that has the text of the
number in its place. -/
structure NumberedOutcome (j : Json) (n : Json.Number) : Prop where
  /-- The outcome is the same if the value is no document under the string either, and only
  then. -/
  agree_iff : schemaOf (j.withVersion (.number n)) = schemaOf (j.withVersion (quoted (.number n))) ↔
    (j.member? "swagger").isSome ∨ Document.read? (j.withVersion (quoted (.number n))) = none
  /-- A document is refused for the number, as if it were no JSON. -/
  refused : ∀ d, j.member? "swagger" = none →
    Document.read? (j.withVersion (quoted (.number n))) = some d →
      schemaOf (j.withVersion (.number n)) = .error (.problem .notJson)
  /-- Under the string it is worked on. -/
  accepted : ∀ d, j.member? "swagger" = none →
    Document.read? (j.withVersion (quoted (.number n))) = some d →
      schemaOf (j.withVersion (quoted (.number n))) = schemaOfDocument d
  /-- It does not matter which version the string is, as long as it is one of OpenAPI 3. -/
  strings : ∀ text : String, IsSupported (.string text) →
    schemaOf (j.withVersion (.string text)) = schemaOf (j.withVersion (quoted (.number n)))

theorem numberedOutcome_of_swagger {j swagger : Json} (h : j.member? "swagger" = some swagger)
    (n : Json.Number) : NumberedOutcome j n := by
  have hsame := schemaOf_withVersion_of_swagger h
  have hsome : (j.member? "swagger").isSome = true := by rw [h, Option.isSome_some]
  refine ⟨⟨fun _ => .inl hsome, fun _ => hsame _ _⟩, fun _ hnone => ?_, fun _ hnone => ?_,
    fun _ _ => hsame _ _⟩
  · exact nomatch h.symm.trans hnone
  · exact nomatch h.symm.trans hnone

theorem numberedOutcome_object {n : Json.Number} (h : IsSupported (.number n))
    {members : List (String × Json)}
    (hswagger : (Json.object members).member? "swagger" = none) :
    NumberedOutcome (.object members) n := by
  have hquoted : IsSupported (quoted (.number n)) := h
  have hrefused :
      schemaOf ((Json.object members).withVersion (.number n)) = .error (.problem .notJson) := by
    rw [schemaOf_withVersion hswagger h, schemaOfReading, OpenApi.read?_withVersion_number]
  have haccepted (d)
      (hread : Document.read? ((Json.object members).withVersion (quoted (.number n))) = some d) :
      schemaOf ((Json.object members).withVersion (quoted (.number n))) = schemaOfDocument d := by
    rw [schemaOf_withVersion hswagger hquoted, schemaOfReading, hread]
  refine ⟨⟨fun hagree => ?_, fun hno => ?_⟩, fun _ _ _ => hrefused, fun d _ => haccepted d,
    fun _ htext => schemaOf_withVersion_string hswagger h htext⟩
  · -- A document that was read would have to be reported as unreadable.
    refine .inr (Option.eq_none_iff_forall_ne_some.mpr fun d hread => ?_)
    rw [hrefused, haccepted d hread] at hagree
    exact schemaOfDocument_ne_notJson d hagree.symm
  · rw [hswagger] at hno
    have hread := hno.resolve_left nofun
    rw [hrefused, schemaOf_withVersion hswagger hquoted, schemaOfReading, hread]

/-- A version of OpenAPI 3 that is a number makes every document unreadable. -/
theorem numbered_outcome {n : Json.Number} (h : IsSupported (.number n)) (j : Json) :
    NumberedOutcome j n := by
  cases hswagger : j.member? "swagger" with
  | some swagger => exact numberedOutcome_of_swagger hswagger n
  | none =>
    cases j with
    | object members => exact numberedOutcome_object h hswagger
    | null | bool _ | number _ | string _ | array _ =>
      exact ⟨⟨fun _ => .inr rfl, fun _ => rfl⟩, nofun, nofun, fun _ _ => rfl⟩

/-- The number `3.0`. -/
def three : Json.Number :=
  .float ⟨false, 6755399441055744, -51⟩

theorem numbered_outcome_family :
    IsSupported (.number three) ∧ NumberedOutcome familyDocument three ∧
      schemaOf (familyDocument.withVersion (.number three)) = .error (.problem .notJson) ∧
      schemaOf (familyDocument.withVersion (.string "3.0")) = .ok familySchema := by
  have h : IsSupported (.number three) := by decide +kernel
  exact ⟨h, numbered_outcome h familyDocument, by decide +kernel, by decide +kernel⟩

/-- In YAML a version without quotes is a number. -/
example :
    (Yaml.read? "openapi: 3.0\ninfo: \x7btitle: A, version: v1\x7d\npaths: \x7b\x7d").map schemaOf =
      some (.error (.problem .notJson)) := by
  decide +kernel

end Generation

end ApiGraph
