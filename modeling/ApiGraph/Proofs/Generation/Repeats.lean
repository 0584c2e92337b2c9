import ApiGraph.Proofs.Generation.Records

/-!
# Components that get several types

A component that is an object gets its type once in each position, and keeps it.  No such thing is
kept for arrays: whenever one is referred to, the type of its items is found anew.  If the component
ends inline, another type is made each time.

`translationsFor` lists what is translated for the endpoints of a document, a component once for
each reference to it.

* `madeInTurn_of_rootFields`: the fields and their arguments have the types that are found in turn.
* `lists_of_place`, `exists_place_of_mem`: the types in the list are those that stand in the places
  of the schema.
* `translations_of_schemaOf`: which references to a component get the same type.
* `translations_kittens`: two references to a list of kittens, which get different types.
-/

namespace ApiGraph.Generation

open ApiGraph.GraphQL hiding Schema
open ApiGraph.OpenApi (RefOr Schema Components Endpoint EndpointParameter EndpointBody)

/-! ## What is translated for endpoints -/

/-- A schema that may be missing, as a task. -/
def optionalTask (position : Position) (schema : Option (RefOr Schema)) (hint : String) :
    List Task :=
  (schema.map fun a => ⟨position, a, hint⟩).toList

/-- The schema of a body as a task, called after its component or after the field.  There is no type
if a reference cannot be followed, whatever the hint is. -/
def bodyTask (c : Components) (base : String) (b : EndpointBody) : Task where
  position := .input
  schema := b.schema
  hint := match bodyBase c base b.schema with
    | .ok hint => hint
    | .error _ => base

/-- The schemas that are translated for an endpoint, in order. -/
def tasksOf (c : Components) (e : Endpoint) : List Task :=
  let base := typeName e.fieldName
  optionalTask .output e.response base ++
    (e.parameters.flatMap (fun p => optionalTask .input p.schema (propertyHint base p.name)) ++
      (e.body.map (bodyTask c base)).toList)

/-- Make the type for a task. -/
def Task.make (c : Components) (t : Task) (r : Registry) : Except Fault (TypeRef × Registry) :=
  schemaType c t.position t.schema t.hint r

/-- All that is translated for a task. -/
def Task.translated (c : Components) (t : Task) (r : Registry) : List Translation :=
  translations ⟨c, t.position⟩ (nestingBound c t.schema) t.schema t.hint r

/-- All that is translated for endpoints. -/
def translationsFor (c : Components) (endpoints : List Endpoint) : List Translation :=
  translatedInTurn (Task.make c) (Task.translated c) (endpoints.flatMap (tasksOf c))
    (.start c.schemas.keys)

/-! ## Runs -/

/-- The type of a schema that may be missing, where it stands. -/
def optionalUse (position : Position) (schema : Option (RefOr Schema)) (type : TypeRef) :
    List Translation :=
  (schema.map fun a => ⟨position, a, type⟩).toList

/-- The types of arguments, with the schemas that they are for. -/
def argumentUses (schemas : List (Option (RefOr Schema))) (arguments : List InputValue) :
    List Translation :=
  (schemas.zip arguments).flatMap fun q => optionalUse .input q.1 q.2.type

/-- The types of a field and of its arguments, with the schemas that they are for. -/
def fieldUses (e : Endpoint) (f : Field) : List Translation :=
  optionalUse .output e.response f.type ++ argumentUses (argumentSchemas e) f.arguments

section Endpoints

variable {c : Components} {r r' : Registry} {base : String} {e : Endpoint}
  {endpoints : List Endpoint}

theorem mem_optionalUse {position : Position} {schema : Option (RefOr Schema)} {type : TypeRef}
    {y : Translation} :
    y ∈ optionalUse position schema type ↔ ∃ a ∈ schema, y = ⟨position, a, type⟩ := by
  rw [optionalUse, Option.mem_toList, Option.map_eq_some_iff]
  exact exists_congr fun a => and_congr_right fun _ => eq_comm

theorem argumentUses_append {schemas schemas' : List (Option (RefOr Schema))}
    {arguments arguments' : List InputValue} (h : schemas.length = arguments.length) :
    argumentUses (schemas ++ schemas') (arguments ++ arguments') =
      argumentUses schemas arguments ++ argumentUses schemas' arguments' := by
  rw [argumentUses, List.zip_append h, List.flatMap_append]
  rfl

theorem madeInTurn_of_optionalType {position : Position} {schema : Option (RefOr Schema)}
    {hint : String} {type : TypeRef}
    (h : optionalType c position schema hint r = .ok (type, r')) :
    ∃ made, madeInTurn (Task.make c) (optionalTask position schema hint) r = .ok (made, r') ∧
      ∀ condition, List.Forall₂ Translation.IsUsedAs made
        (optionalUse position schema (type.excludeNullIf condition)) := by
  cases schema with
  | none =>
    obtain ⟨-, rfl⟩ := Prod.mk.inj (Except.ok.inj h)
    exact ⟨[], rfl, fun _ => .nil⟩
  | some a =>
    refine ⟨[⟨position, a, type⟩], madeInTurn_cons.mpr ⟨type, r', [], h, rfl, rfl⟩, fun _ => ?_⟩
    exact .cons ⟨rfl, rfl, _, rfl⟩ .nil

theorem madeInTurn_of_parameterArguments {field : String} {ps : List EndpointParameter}
    {arguments arguments' : List InputValue}
    (h : parameterArguments c field base arguments ps r = .ok (arguments', r')) :
    ∃ made new, madeInTurn (Task.make c)
        (ps.flatMap fun p => optionalTask .input p.schema (propertyHint base p.name)) r =
          .ok (made, r') ∧
      arguments' = arguments ++ new ∧ ps.length = new.length ∧
      List.Forall₂ Translation.IsUsedAs made (argumentUses (ps.map (·.schema)) new) := by
  induction ps generalizing arguments r with
  | nil =>
    obtain ⟨rfl, rfl⟩ := Prod.mk.inj (Except.ok.inj h)
    exact ⟨[], [], rfl, (List.append_nil _).symm, rfl, .nil⟩
  | cons p ps ih =>
    obtain ⟨⟨type, r₁⟩, htype, h⟩ := bind_eq_ok.mp h
    obtain ⟨_, hadd, h⟩ := bind_eq_ok.mp h
    obtain ⟨-, rfl⟩ := addArgument_eq_ok.mp hadd
    obtain ⟨made, hmade, huses⟩ := madeInTurn_of_optionalType htype
    obtain ⟨rest, new, hrest, rfl, hlength, hothers⟩ := ih h
    rw [List.flatMap_cons]
    refine ⟨made ++ rest, _ :: new, madeInTurn_append hmade hrest, List.append_assoc ..,
      congrArg (· + 1) hlength, ?_⟩
    exact List.rel_append (huses p.required) hothers

theorem madeInTurn_of_bodyArgument {field : String} {body : Option EndpointBody}
    {arguments arguments' : List InputValue}
    (h : bodyArgument c field base arguments body r = .ok (arguments', r')) :
    ∃ made new, madeInTurn (Task.make c) (body.map (bodyTask c base)).toList r = .ok (made, r') ∧
      arguments' = arguments ++ new ∧
      List.Forall₂ Translation.IsUsedAs made
        (argumentUses (body.map fun b => some b.schema).toList new) := by
  cases body with
  | none =>
    obtain ⟨rfl, rfl⟩ := Prod.mk.inj (Except.ok.inj h)
    exact ⟨[], [], rfl, (List.append_nil _).symm, .nil⟩
  | some b =>
    obtain ⟨hint, hhint, h⟩ := bind_eq_ok.mp h
    obtain ⟨⟨type, r₁⟩, htype, h⟩ := bind_eq_ok.mp h
    obtain ⟨_, hadd, h⟩ := bind_eq_ok.mp h
    obtain ⟨-, rfl⟩ := addArgument_eq_ok.mp hadd
    obtain ⟨rfl, rfl⟩ := Prod.mk.inj (Except.ok.inj h)
    have hmake : (bodyTask c base b).make c r = .ok (type, r₁) := by
      unfold Task.make bodyTask
      simp only [hhint]
      exact htype
    refine ⟨_, _, madeInTurn_cons.mpr ⟨type, r₁, [], hmake, rfl, rfl⟩, rfl, ?_⟩
    exact .cons ⟨rfl, rfl, _, rfl⟩ .nil

theorem madeInTurn_of_endpointField {f : Field} (h : endpointField c e r = .ok (f, r')) :
    ∃ made, madeInTurn (Task.make c) (tasksOf c e) r = .ok (made, r') ∧
      List.Forall₂ Translation.IsUsedAs made (fieldUses e f) := by
  obtain ⟨⟨type, r₁⟩, htype, h⟩ := bind_eq_ok.mp h
  obtain ⟨⟨arguments, r₂⟩, harguments, h⟩ := bind_eq_ok.mp h
  obtain ⟨⟨arguments', r₃⟩, hbody, h⟩ := bind_eq_ok.mp h
  obtain ⟨rfl, rfl⟩ := Prod.mk.inj (Except.ok.inj h)
  obtain ⟨answer, hanswer, huse⟩ := madeInTurn_of_optionalType htype
  obtain ⟨made, new, hmade, rfl, hlength, huses⟩ := madeInTurn_of_parameterArguments harguments
  obtain ⟨last, new', hlast, rfl, huses'⟩ := madeInTurn_of_bodyArgument hbody
  refine ⟨answer ++ (made ++ last), madeInTurn_append hanswer (madeInTurn_append hmade hlast), ?_⟩
  have hanswered := huse false
  rw [excludeNullIf_false] at hanswered
  refine List.rel_append hanswered ?_
  rw [argumentSchemas, argumentUses_append ((List.length_map _).trans hlength)]
  exact List.rel_append huses huses'

/-- The fields and their arguments have the types that are found in turn. -/
theorem madeInTurn_of_rootFields {roots roots' : Roots}
    (h : rootFields c roots endpoints r = .ok (roots', r')) :
    ∃ made fields, madeInTurn (Task.make c) (endpoints.flatMap (tasksOf c)) r = .ok (made, r') ∧
      List.Forall₂ Translation.IsUsedAs made
        ((endpoints.zip fields).flatMap fun q => fieldUses q.1 q.2) ∧
      List.Forall₂ (fun e f => f ∈ roots'.fieldsFor e ∧ f.name = e.fieldName) endpoints fields := by
  induction endpoints generalizing roots r with
  | nil =>
    obtain ⟨-, rfl⟩ := Prod.mk.inj (Except.ok.inj h)
    exact ⟨[], [], rfl, .nil, .nil⟩
  | cons e rest ih =>
    obtain ⟨⟨f, r₁⟩, hfield, h⟩ := bind_eq_ok.mp h
    obtain ⟨_, hadd, h⟩ := bind_eq_ok.mp h
    obtain ⟨-, rfl⟩ := add_eq_ok.mp hadd
    obtain ⟨made, hmade, huses⟩ := madeInTurn_of_endpointField hfield
    obtain ⟨behind, fields, hbehind, hothers, hfields⟩ := ih h
    have hname := congrArg Prod.fst (names_of_makesField (makes_of_endpointField hfield))
    rw [List.flatMap_cons]
    refine ⟨made ++ behind, f :: fields, madeInTurn_append hmade hbehind,
      List.rel_append huses hothers, .cons ⟨?_, hname⟩ hfields⟩
    exact (makes_of_rootFields h).fieldsFor_subset e (mem_fieldsFor_push _ e f)

/-! ## Places -/

theorem mem_zip_memberTypes {α : Type} {l : List α} {t : Composite} {q : α × String × TypeRef} :
    q ∈ l.zip t.memberTypes ↔ ∃ p m, (p, m) ∈ l.zip t.members ∧ q = (p, m.name, m.type) := by
  rw [Composite.memberTypes, List.zip_map_right, List.mem_map]
  constructor
  · rintro ⟨⟨p, m⟩, hmem, rfl⟩
    exact ⟨p, m, hmem, rfl⟩
  · rintro ⟨p, m, hmem, rfl⟩
    exact ⟨(p, m), hmem, rfl⟩

section Runs

variable {roots : Roots} (h : rootFields c {} endpoints (.start c.schemas.keys) = .ok (roots, r))
include h

theorem exists_records : ∃ made fields,
    Records c made (translationsFor c endpoints) (.start c.schemas.keys) r ∧
      List.Forall₂ Translation.IsUsedAs made
        ((endpoints.zip fields).flatMap fun q => fieldUses q.1 q.2) ∧
      List.Forall₂ (IsFieldOf (assemble roots r)) endpoints fields := by
  obtain ⟨made, fields, hmade, huses, hfields⟩ := madeInTurn_of_rootFields h
  refine ⟨made, fields, ?_, huses, hfields.imp fun e f ⟨hf, hname⟩ => ?_⟩
  · exact records_inTurn (fun t _ _ _ _ hmake hwell => (records_translations hmake hwell).1) hmade
      (.start _)
  · exact ⟨_, rootObject_mem (List.ne_nil_of_mem hf), rfl, hf, hname⟩

/-- A type that stands in a place of the schema is listed. -/
theorem lists_of_place {position : Position} {a : RefOr Schema} {type : TypeRef}
    (hplace : Place c endpoints (assemble roots r) position a type) :
    Lists (translationsFor c endpoints) ⟨position, a, type⟩ := by
  have hmakes := makes_of_rootFields h
  obtain ⟨made, fields, hrecords, huses, hfields⟩ := exists_records h
  -- No component had a type at the beginning, so all parts of what is listed are.
  have hparts : ∀ x ∈ translationsFor c endpoints, ∀ y, PartOf c r x y →
      Lists (translationsFor c endpoints) y := by
    intro x hx
    rcases hrecords.parts x hx with hlisted | ⟨name, -, htype⟩
    · exact hlisted r (.refl r)
    · exact nomatch htype
  have hfield : ∀ {e f y}, e ∈ endpoints → IsFieldOf (assemble roots r) e f → y ∈ fieldUses e f →
      Lists (translationsFor c endpoints) y := by
    intro e f y he hf hy
    obtain ⟨g, hg⟩ := exists_mem_zip hfields he
    obtain ⟨_, -, -, hunique⟩ := hmakes.exists_isFieldOf he
    obtain rfl := (hunique f hf).trans (hunique g (List.forall₂_zip hfields hg)).symm
    exact (lists_of_uses huses (List.mem_flatMap.mpr ⟨_, hg, hy⟩)).mono hrecords.outermost
  induction hplace with
  | response he hf ha =>
    exact hfield he hf (List.mem_append_left _ (mem_optionalUse.mpr ⟨_, ha, rfl⟩))
  | argument he hf hslot ha =>
    refine hfield he hf (List.mem_append_right _ (List.mem_flatMap.mpr ⟨_, hslot, ?_⟩))
    exact mem_optionalUse.mpr ⟨_, ha, rfl⟩
  | item _ hresolve hkind htype ih =>
    obtain ⟨made, condition, hx, rfl⟩ := ih.exists_mem
    obtain ⟨item, itemCondition, -, rfl⟩ := (hrecords.stands _ hx).of_array hresolve hkind
    rw [list_of_excludeNullIf rfl htype]
    exact hparts _ hx _ (.item hresolve hkind rfl)
  | member _ hresolve hkind hmembers hmember ih =>
    obtain ⟨made, condition, hx, rfl⟩ := ih.exists_mem
    have hobject := (hrecords.stands _ hx).of_object hmakes.allDone hresolve hkind
    cases hobject with
    | hidden hvisible =>
      rw [hvisible] at hmember
      exact absurd hmember List.not_mem_nil
    | shown _ hregistered _ =>
      rw [leaf_excludeNullIf] at hmembers
      have hsame := eq_of_mem_typesIn hmakes.nodup_typeNames hmembers
        (mem_typesIn_assemble roots hregistered)
      rw [hsame] at hmember
      obtain ⟨_, m, hzip, heq⟩ := mem_zip_memberTypes.mp hmember
      obtain ⟨rfl, rfl⟩ := Prod.mk.inj heq
      exact hparts _ hx _ (.member hresolve hkind rfl hregistered hzip)

omit h in
/-- What stands in a type that has a place has a place. -/
theorem exists_place_of_above {x y : Translation} (hxy : Above c r x y)
    (hx : ∃ z, x.IsUsedAs z ∧ Place c endpoints (assemble roots r) z.position z.schema z.type) :
    ∃ z, y.IsUsedAs z ∧ Place c endpoints (assemble roots r) z.position z.schema z.type := by
  obtain ⟨⟨position, a, type⟩, ⟨rfl, rfl, condition, rfl⟩, hplace⟩ := hx
  obtain ⟨z, hz, huse⟩ := hxy
  refine ⟨z, huse, ?_⟩
  cases hz with
  | item hresolve hkind htype =>
    refine .item hplace hresolve hkind ?_
    rw [htype]
    cases condition with
    | false => exact Or.inl rfl
    | true => exact Or.inr rfl
  | @member _ _ _ _ t p m hresolve hkind htype hregistered hmember =>
    have hmembers : ((x.type.excludeNullIf condition).leaf, t.memberTypes) ∈
        typesIn (assemble roots r) x.position := by
      rw [leaf_excludeNullIf, htype]
      exact mem_typesIn_assemble roots hregistered
    have hplaced := Place.member hplace hresolve hkind hmembers
      (mem_zip_memberTypes.mpr ⟨p, m, hmember, rfl⟩)
    exact hplaced

/-- What is listed stands in a place of the schema. -/
theorem exists_place_of_mem {x : Translation} (hx : x ∈ translationsFor c endpoints) :
    ∃ y, x.IsUsedAs y ∧ Place c endpoints (assemble roots r) y.position y.schema y.type := by
  obtain ⟨made, fields, hrecords, huses, hfields⟩ := exists_records h
  obtain ⟨t, ht, hbelow⟩ := hrecords.below x hx
  replace hbelow := hbelow r (.refl r)
  clear hx
  have htop : ∃ y, t.IsUsedAs y ∧
      Place c endpoints (assemble roots r) y.position y.schema y.type := by
    obtain ⟨y, hy, huse⟩ := exists_of_forall₂ huses ht
    refine ⟨y, huse, ?_⟩
    obtain ⟨⟨e, f⟩, hmem, hy⟩ := List.mem_flatMap.mp hy
    have he := (List.of_mem_zip hmem).1
    have hf : IsFieldOf (assemble roots r) e f := List.forall₂_zip hfields hmem
    rcases List.mem_append.mp hy with hy | hy
    · obtain ⟨a, ha, rfl⟩ := mem_optionalUse.mp hy
      exact .response he hf ha
    · obtain ⟨⟨slot, argument⟩, hslot, hy⟩ := List.mem_flatMap.mp hy
      obtain ⟨a, ha, rfl⟩ := mem_optionalUse.mp hy
      exact .argument he hf hslot ha
  -- Along the way down from one of the outermost types, all have places.
  induction hbelow with
  | refl => exact htop
  | tail _ hstep ih => exact exists_place_of_above hstep ih

end Runs

end Endpoints

/-- What a list of translations says about the schema that they are for. -/
structure Translates (c : Components) (endpoints : List Endpoint) (schema : GraphQL.Schema)
    (log : List Translation) : Prop where
  /-- Everything that is worked on is translated. -/
  worked : ∀ e ∈ endpoints, ∀ position a b, WorksOn e position a → Inside ⟨c, position⟩ a b →
    ∃ type, Lists log ⟨position, b, type⟩
  /-- The types in the places of the schema are those that were found, and the other way round. -/
  placed : ∀ position a type, Place c endpoints schema position a type →
    Lists log ⟨position, a, type⟩
  places : ∀ x ∈ log, ∃ y, x.IsUsedAs y ∧ Place c endpoints schema y.position y.schema y.type
  /-- Two references to one component in the same position are translated to the same type just if
  the component does not end inline. -/
  same : log.Pairwise fun x y => ∀ component, x.position = y.position →
    Setting.RefersTo ⟨c, x.position⟩ x.schema component →
      Setting.RefersTo ⟨c, y.position⟩ y.schema component →
        (x.type = y.type ↔ ¬ EndsInline ⟨c, x.position⟩ x.schema)

/-- For every schema, this is what is translated for the endpoints of its document. -/
theorem translations_of_schemaOf {j : Json} {schema : GraphQL.Schema}
    (h : schemaOf j = .ok schema) :
    ∃ d endpoints, documentOf j = .ok d ∧ d.endpoints = .ok endpoints ∧
      Translates d.components endpoints schema (translationsFor d.components endpoints) := by
  obtain ⟨d, endpoints, roots, r, hdocument, hendpoints, hrun, rfl, -⟩ := rootFields_of_schemaOf h
  have hmakes := makes_of_rootFields hrun
  refine ⟨d, endpoints, hdocument, hendpoints, ?_⟩
  constructor
  case worked =>
    intro e he position a b hworks hinside
    obtain ⟨_, hroot⟩ := exists_place_of_worksOn hmakes he hworks
    obtain ⟨type, hplace⟩ := exists_place_of_inside hmakes hinside hroot
    exact ⟨type, lists_of_place hrun hplace⟩
  case placed => exact fun _ _ _ hplace => lists_of_place hrun hplace
  case places => exact fun _ hx => exists_place_of_mem hrun hx
  case same =>
    obtain ⟨_, _, hrecords, -⟩ := exists_records hrun
    refine hrecords.apart.imp_of_mem fun {x y} hx hy hapart component hposition hx' hy' => ?_
    obtain ⟨position, b, type'⟩ := y
    obtain rfl : x.position = position := hposition
    constructor
    · exact fun heq hends => hapart hends (hends.of_refersTo hx' hy') heq
    · intro hnot
      have hsame := resolve_eq_of_refersTo hx' hy'
      exact (hrecords.stands x hx).unique ((hrecords.stands _ hy).of_resolve_eq hsame)
        hmakes.allDone hnot

/-- A list of kittens, which are no component, is answered on two paths. -/
def kittenDocument : Json :=
  let answer : Json := .object [("get", .object [("responses", .object [("200",
    .object [("description", .string "Kittens"), ("content", .object [("application/json",
      .object [("schema", .object [("$ref", .string "#/components/schemas/Kittens")])])])])])])]
  .object [("openapi", .string "3.0.0"),
    ("info", .object [("title", .string "Kittens"), ("version", .string "1")]),
    ("paths", .object [("/kittens", answer), ("/strays", answer)]),
    ("components", .object [("schemas", .object [("Kittens", .object [("type", .string "array"),
      ("items", .object [("type", .string "object"), ("properties",
        .object [("name", .object [("type", .string "string")])])])])])])]

def kittenSchema : GraphQL.Schema :=
  { objects := [
      { name := "Query", fields := [
        { name := "kittens", type := .list (.nonNull (.named "KittensItem")) },
        { name := "strays", type := .list (.nonNull (.named "KittensItem2")) }] },
      { name := "KittensItem", fields := [{ name := "name", type := .named "String" }] },
      { name := "KittensItem2", fields := [{ name := "name", type := .named "String" }] }]
    inputs := []
    usesJson := false
    hasMutation := false }

/-- What is translated for the kittens and for the strays. -/
theorem translations_kittens :
    schemaOf kittenDocument = .ok kittenSchema ∧
      ∃ d endpoints, documentOf kittenDocument = .ok d ∧ d.endpoints = .ok endpoints ∧
        Translates d.components endpoints kittenSchema
          (translationsFor d.components endpoints) := by
  have hschema : schemaOf kittenDocument = .ok kittenSchema := by decide +kernel
  exact ⟨hschema, translations_of_schemaOf hschema⟩

end ApiGraph.Generation
