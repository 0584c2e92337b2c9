import ApiGraph.Proofs.Generation.Origins
import ApiGraph.Proofs.Generation.Problems
import ApiGraph.Proofs.Generation.TypeNames
import Mathlib

/-!
# Types called like built-in scalars

The names of the roots and of `JSON` are never handed out, but those of the built-in scalars are.
All types of a document have different names, and the check of the schema finds a type that exists
already exactly if one of those for answers is called like a built-in scalar.

Such a name has nothing appended to it: numbers, `Item` and `Input` are at the end of no built-in
scalar, and what is appended for a property does not begin with a small letter, so it can only be
the `D` of `ID`.  Hence the name is the one of a component or of a field, or that is so for the type
`I` with the member behind which `ID` is made.

* `BuiltinSource`: how a type comes by the name of a built-in scalar.
* `typeExists_iff`: the documents that are refused because of such a name.
* `typeExists_float`: a component that is called `Float`.
-/

namespace ApiGraph.GraphQL

/-! ## The violation -/

theorem typeExists_of_inTypeName? {name : String} {v : Violation}
    (h : Violation.inTypeName? name = some v) :
    v = .typeExists name ∧ name ∈ builtinScalars := by
  unfold Violation.inTypeName? at h
  split at h
  · rename_i hname
    exact ⟨(Option.some.inj h).symm, List.contains_iff_mem.mp hname⟩
  · exact nomatch h

theorem inObject?_ne_typeExists (o : ObjectType) (name : String) :
    Violation.inObject? o ≠ some (.typeExists name) := by
  intro h
  obtain ⟨f, -, hf⟩ := List.exists_of_findSome?_eq_some h
  rcases Option.or_eq_some_iff.mp hf with hf | ⟨-, hf⟩
  · unfold Violation.ofFieldName? at hf
    split at hf <;> exact nomatch hf
  · obtain ⟨a, -, ha⟩ := List.exists_of_findSome?_eq_some hf
    unfold Violation.ofArgumentName? at ha
    split at ha <;> exact nomatch ha

theorem inInput?_ne_typeExists (s : Schema) (i : InputObject) (name : String) :
    Violation.inInput? s i ≠ some (.typeExists name) := by
  intro h
  rcases Option.or_eq_some_iff.mp h with hf | ⟨-, hself⟩
  · obtain ⟨f, -, hf⟩ := List.exists_of_findSome?_eq_some hf
    unfold Violation.ofFieldName? at hf
    split at hf <;> exact nomatch hf
  · split at hself <;> exact nomatch hself

/-- A type that exists already is one that is called like a built-in scalar. -/
theorem exists_typeExists_iff {s : Schema} :
    (∃ name, s.violation? = some (.typeExists name)) ↔
      ∃ name ∈ s.typeNames, name ∈ builtinScalars := by
  constructor
  · rintro ⟨name, h⟩
    rcases Option.or_eq_some_iff.mp h with h | ⟨-, h⟩
    · obtain ⟨n, hn, hviolation⟩ := List.exists_of_findSome?_eq_some h
      exact ⟨n, hn, (typeExists_of_inTypeName? hviolation).2⟩
    rcases Option.or_eq_some_iff.mp h with h | ⟨-, h⟩
    · obtain ⟨o, -, ho⟩ := List.exists_of_findSome?_eq_some h
      exact absurd ho (inObject?_ne_typeExists o name)
    · obtain ⟨i, -, hi⟩ := List.exists_of_findSome?_eq_some h
      exact absurd hi (inInput?_ne_typeExists s i name)
  · rintro ⟨name, hname, hbuiltin⟩
    cases hfirst : s.typeNames.findSome? Violation.inTypeName? with
    | none =>
      have hnone := List.findSome?_eq_none_iff.mp hfirst name hname
      rw [Violation.inTypeName?, if_pos (List.contains_iff_mem.mpr hbuiltin)] at hnone
      exact nomatch hnone
    | some v =>
      obtain ⟨n, -, hn⟩ := List.exists_of_findSome?_eq_some hfirst
      obtain ⟨rfl, -⟩ := typeExists_of_inTypeName? hn
      refine ⟨n, ?_⟩
      rw [Schema.violation?, hfirst, Option.some_or]

end ApiGraph.GraphQL

namespace ApiGraph.Text

theorem bounds_of_isLower {c : Char} (h : c.isLower = true) :
    97 ≤ c.val.toNat ∧ c.val.toNat ≤ 122 := by
  simp only [Char.isLower, Bool.and_eq_true, decide_eq_true_eq, UInt32.le_iff_toNat_le] at h
  exact h

theorem isLower_of_isNumeric {c : Char} (h : isNumeric c = true) : c.isLower = false := by
  rw [Bool.eq_false_iff]
  intro hlower
  obtain ⟨habove, hbelow⟩ := bounds_of_isLower hlower
  simp only [isNumeric, Char.isDigit, Bool.or_eq_true, Bool.and_eq_true, decide_eq_true_eq,
    UInt32.le_iff_toNat_le] at h
  rcases h with ⟨-, hdigit⟩ | ⟨hforeign, -⟩
  · have hnine : c.val.toNat ≤ 57 := hdigit
    omega
  · rw [← Char.toNat_val] at hforeign
    omega

/-- A word does not begin with a small letter of ASCII. -/
theorem isLower_head_joinWords {last c : Char} {found : Bool} {cs r : List Char}
    (h : joinWords true last found cs = c :: r) : c.isLower = false := by
  induction cs generalizing found with
  | nil => exact nomatch h
  | cons d cs ih =>
    rw [joinWords] at h
    split at h
    · rw [Bool.true_or] at h
      exact ih h
    · split at h
      · rename_i hnumeric
        rw [← (List.cons.inj h).1]
        exact isLower_of_isNumeric hnumeric
      · rw [Bool.true_or, if_pos rfl] at h
        rw [← (List.cons.inj h).1]
        exact Char.isLower_toUpper_eq_false d

end ApiGraph.Text

namespace ApiGraph.GraphQL

open ApiGraph.Text

theorem isLower_toNameChar {c : Char} (h : c.isLower = false) :
    (toNameChar c).isLower = false := by
  unfold toNameChar
  split
  · exact h
  · rfl

/-- The name of a type does not begin with a small letter. -/
theorem exists_head_typeName (s : String) :
    ∃ c r, (typeName s).toList = c :: r ∧ c.isLower = false := by
  rw [typeName, String.toList_ofList, sanitize]
  cases hwords : (pascalCase s.toList).map toNameChar with
  | nil => exact ⟨'_', [], rfl, rfl⟩
  | cons c r =>
    rw [guardStart]
    split
    · exact ⟨'_', c :: r, rfl, rfl⟩
    · obtain ⟨d, r', hcons, rfl, -⟩ := List.map_eq_cons_iff.mp hwords
      exact ⟨_, r, rfl, isLower_toNameChar (isLower_head_joinWords hcons)⟩

/-! ## Built-in scalars as texts -/

theorem not_mem_builtinScalars_of_suffix {s t : String}
    (h : ∀ name ∈ builtinScalars, ¬ t.toList <:+ name.toList) : s ++ t ∉ builtinScalars := by
  intro hmem
  refine h _ hmem ?_
  rw [String.toList_append]
  exact List.suffix_append _ _

/-- Behind the first letter of a built-in scalar are small letters, or it is `ID`. -/
theorem eq_id_of_mem_tail {name : String} (h : name ∈ builtinScalars) {c : Char}
    (hc : c ∈ name.toList.tail) (hlower : c.isLower = false) : name = "ID" := by
  have hall : ∀ name ∈ builtinScalars, name.toList.tail.all Char.isLower = true ∨ name = "ID" := by
    decide
  rcases hall name h with hsmall | hid
  · rw [List.all_eq_true.mp hsmall c hc] at hlower
    exact nomatch hlower
  · exact hid

/-- The name of a type behind another text makes only one of the built-in scalars. -/
theorem eq_of_append_mem_builtinScalars {owner s : String} (hne : owner ≠ "")
    (h : owner ++ typeName s ∈ builtinScalars) : owner = "I" ∧ typeName s = "D" := by
  obtain ⟨c, r, hname, hlower⟩ := exists_head_typeName s
  obtain ⟨o, os, howner⟩ : ∃ o os, owner.toList = o :: os :=
    List.exists_cons_of_ne_nil fun hnil => hne (String.toList_eq_nil_iff.mp hnil)
  have hchars : (owner ++ typeName s).toList = o :: (os ++ c :: r) := by
    rw [String.toList_append, howner, hname, List.cons_append]
  have hmem : c ∈ (owner ++ typeName s).toList.tail := by
    rw [hchars]
    exact List.mem_append_right os (List.mem_cons_self ..)
  have hid : o :: (os ++ c :: r) = ['I', 'D'] := by
    rw [← hchars, eq_id_of_mem_tail h hmem hlower]
    rfl
  obtain ⟨rfl, hrest⟩ := List.cons.inj hid
  rcases List.append_eq_singleton_iff.mp hrest with ⟨rfl, hcons⟩ | ⟨-, hcons⟩
  · obtain ⟨rfl, rfl⟩ := List.cons.inj hcons
    exact ⟨String.toList_injective howner, String.toList_injective hname⟩
  · exact nomatch hcons

end ApiGraph.GraphQL

namespace ApiGraph.Generation

open ApiGraph.GraphQL hiding Schema
open ApiGraph.OpenApi (RefOr Schema Components Endpoint)

theorem exists_isDigit_of_isNumbered {preferred name : String} (h : IsNumbered preferred name) :
    ∃ d ∈ name.toList, d.isDigit = true := by
  obtain ⟨k, -, rfl⟩ := h
  obtain ⟨d, ds, hdigits⟩ := List.exists_cons_of_ne_nil (Nat.toDigits_ne_nil (b := 10) (n := k))
  have hd : d ∈ Nat.toDigits 10 k := by
    rw [hdigits]
    exact List.mem_cons_self ..
  refine ⟨d, ?_, Nat.isDigit_of_mem_toDigits (by decide) (Nat.le_refl 10) hd⟩
  rw [NamePool.numbered, String.toList_append, String.toList_ofList]
  exact List.mem_append_right _ hd

theorem not_mem_builtinScalars_of_isNumbered {preferred name : String}
    (h : IsNumbered preferred name) : name ∉ builtinScalars := by
  intro hname
  have hletters : ∀ name ∈ builtinScalars, name.toList.any Char.isDigit = false := by decide
  have hdigit := List.any_eq_true.mpr (exists_isDigit_of_isNumbered h)
  rw [hletters name hname] at hdigit
  exact nomatch hdigit

theorem eq_of_isVariant {preferred name : String} (h : IsVariant preferred name)
    (hname : name ∈ builtinScalars) : name = preferred :=
  h.resolve_right fun hnumbered => not_mem_builtinScalars_of_isNumbered hnumbered hname

/-! ## Where such names come from -/

/-- How a type comes by the name of a built-in scalar. -/
inductive BuiltinSource (c : Components) (endpoints : List Endpoint) : String → Prop
  /-- An object component has the name. -/
  | component {a : RefOr Schema} {hint d : String} {resolved : Schema}
      {properties : List (String × RefOr Schema)} {required : List String}
      (hmet : Met c endpoints a hint)
      (hresolve : Setting.resolve ⟨c, .output⟩ a = .ok (some d, resolved))
      (hkind : resolved.kind = .object properties required) :
      BuiltinSource c endpoints (typeName d)
  /-- A field has the name, and its answer is an object that is no component. -/
  | field {e : Endpoint} {a : RefOr Schema} {resolved : Schema}
      {properties : List (String × RefOr Schema)} {required : List String}
      (he : e ∈ endpoints) (ha : a ∈ e.response)
      (hresolve : Setting.resolve ⟨c, .output⟩ a = .ok (none, resolved))
      (hkind : resolved.kind = .object properties required) :
      BuiltinSource c endpoints (typeName e.fieldName)
  /-- The type `I` has a property `D`. -/
  | property {a : RefOr Schema} {hint : String} {component : Option String} {resolved : Schema}
      {properties : List (String × RefOr Schema)} {required : List String}
      {p : String × RefOr Schema} (hmet : Met c endpoints a hint)
      (hresolve : Setting.resolve ⟨c, .output⟩ a = .ok (component, resolved))
      (hkind : resolved.kind = .object properties required)
      (hp : p ∈ Setting.visible ⟨c, .output⟩ properties)
      (howner : baseName component hint = "I") (hname : typeName p.1 = "D") :
      BuiltinSource c endpoints "ID"

variable {c : Components} {endpoints : List Endpoint}

theorem ne_empty_of_isName {name : String} (h : isName name = true) : name ≠ "" := by
  rintro rfl
  exact nomatch h

/-- A hint that is called like a built-in scalar. -/
theorem Met.builtinSource {a : RefOr Schema} {hint : String} {resolved : Schema}
    {properties : List (String × RefOr Schema)} {required : List String}
    (h : Met c endpoints a hint)
    (hresolve : Setting.resolve ⟨c, .output⟩ a = .ok (none, resolved))
    (hkind : resolved.kind = .object properties required) (hhint : hint ∈ builtinScalars) :
    BuiltinSource c endpoints hint := by
  cases h with
  | answer he ha => exact .field he ha hresolve hkind
  | item h _ _ =>
    have hitem : ∀ name ∈ builtinScalars, ¬ "Item".toList <:+ name.toList := by decide
    exact absurd hhint (not_mem_builtinScalars_of_suffix hitem)
  | member h hresolve hkind howner hp =>
    have hname := howner.isName (isName_baseName _ h.isName)
    obtain ⟨rfl, hproperty⟩ := eq_of_append_mem_builtinScalars (ne_empty_of_isName hname) hhint
    rcases howner with hbase | hnumbered
    · rw [propertyHint, hproperty]
      exact .property h ‹_› ‹_› hp hbase.symm hproperty
    · obtain ⟨d, hd, hdigit⟩ := exists_isDigit_of_isNumbered hnumbered
      rw [List.mem_singleton.mp hd] at hdigit
      exact absurd hdigit (by decide)

/-- A type that is called like a built-in scalar is one for answers. -/
theorem NamedFor.builtinSource {position : Position} {name : String}
    (h : NamedFor c endpoints position name) (hname : name ∈ builtinScalars) :
    position = .output ∧ BuiltinSource c endpoints name := by
  cases h with
  | @answer a hint _ component resolved _ _ hmet hresolve hkind hvariant =>
    refine ⟨rfl, ?_⟩
    obtain rfl := eq_of_isVariant hvariant hname
    cases component with
    | some d => exact .component hmet hresolve hkind
    | none => exact hmet.builtinSource hresolve hkind hname
  | argument hvariant =>
    have hinput : ∀ name ∈ builtinScalars, ¬ inputSuffix.toList <:+ name.toList := by decide
    obtain rfl := eq_of_isVariant hvariant hname
    exact absurd hname (not_mem_builtinScalars_of_suffix hinput)

/-! ## Documents that are refused -/

/-- A type of the schema that is called like a built-in scalar is an object type. -/
theorem MakesFields.builtinSource {components : List String} {roots : Roots} {r : Registry}
    (hmakes : MakesFields c {} endpoints (.start components) roots r) {name : String}
    (hname : name ∈ (assemble roots r).typeNames) (hbuiltin : name ∈ builtinScalars) :
    (∃ o ∈ (assemble roots r).objects, o.name = name) ∧ BuiltinSource c endpoints name := by
  have hfixed : ∀ name ∈ builtinScalars, name ∉ fixedNames := by decide
  obtain ⟨position, hfinished⟩ := exists_mem_finishedNames hname (hfixed name hbuiltin)
  obtain ⟨e, he⟩ := (wellNamed_of_makesFields hmakes).exists_registered? hfinished
  obtain ⟨rfl, hsource⟩ := (hmakes.originated position name e he).builtinSource hbuiltin
  refine ⟨?_, hsource⟩
  obtain ⟨t, ht, rfl⟩ := List.mem_map.mp hfinished
  refine ⟨t.toObject, ?_, rfl⟩
  rw [objects_assemble]
  exact List.mem_append_right _ (List.mem_map_of_mem ht)

/-- A document is refused because a type exists already exactly if all of its fields can be made and
one of the object types is called like a built-in scalar.  No two of the types that were made have
the same name. -/
theorem typeExists_iff {j : Json} :
    (∃ name, schemaOf j = .error (.problem (.invalidSchema (.typeExists name)))) ↔
      ∃ d endpoints roots r, documentOf j = .ok d ∧ d.endpoints = .ok endpoints ∧
        rootFields d.components {} endpoints (.start d.components.schemas.keys) = .ok (roots, r) ∧
          (assemble roots r).typeNames.Nodup ∧
            ∃ o ∈ (assemble roots r).objects, o.name ∈ builtinScalars ∧
              BuiltinSource d.components endpoints o.name := by
  constructor
  · rintro ⟨name, h⟩
    obtain ⟨d, endpoints, roots, r, hdocument, hendpoints, hroots, hviolation⟩ :=
      invalidSchema_iff.mp h
    have hmakes := makes_of_rootFields hroots
    obtain ⟨builtin, hname, hbuiltin⟩ := exists_typeExists_iff.mp ⟨name, hviolation⟩
    obtain ⟨⟨o, ho, rfl⟩, hsource⟩ := hmakes.builtinSource hname hbuiltin
    exact ⟨d, endpoints, roots, r, hdocument, hendpoints, hroots, hmakes.nodup_typeNames, o, ho,
      hbuiltin, hsource⟩
  · rintro ⟨d, endpoints, roots, r, hdocument, hendpoints, hroots, -, o, ho, hbuiltin, -⟩
    have hname : o.name ∈ (assemble roots r).typeNames :=
      List.mem_append_left _ (List.mem_append_left _ (List.mem_map_of_mem ho))
    obtain ⟨name, hviolation⟩ := exists_typeExists_iff.mpr ⟨o.name, hname, hbuiltin⟩
    exact ⟨name, invalidSchema_iff.mpr
      ⟨d, endpoints, roots, r, hdocument, hendpoints, hroots, hviolation⟩⟩

/-- A document whose answers are objects of the component `Float`. -/
def floatDocument : Json :=
  .object [("openapi", .string "3.0.0"),
    ("info", .object [("title", .string "Floats"), ("version", .string "1")]),
    ("paths", .object [("/floats", .object [("get", .object [("responses", .object [("200",
      .object [("description", .string "All floats"), ("content",
        .object [("application/json", .object [("schema",
          .object [("$ref", .string "#/components/schemas/Float")])])])])])])])]),
    ("components", .object [("schemas", .object [("Float", .object [("type", .string "object"),
      ("properties", .object [("owner", .object [("type", .string "string")])])])])])]

/-- The name of the component is no other type of the document, and the document is refused. -/
theorem typeExists_float :
    schemaOf floatDocument = .error (.problem (.invalidSchema (.typeExists "Float"))) := by
  decide +kernel

end ApiGraph.Generation
