import ApiGraph.Proofs.Generation.InlineEnds

/-!
# What is translated for a schema

`translations` goes along with `typeOf` and lists all schemas that are translated on the way, each
with the type that it gets.  An object that has its type already is listed without its properties,
and so is none of them listed twice.

What a schema got stands in the type of another one as the type of a member or of the items of a
list (`PartOf`); there it may exclude null (`IsUsedAs`).

* `madeInTurn_of_membersOf`: the visible properties of an object are translated one after the other,
  and their members have the types that they got.
* `partTranslations_of_leaf`, `partTranslations_of_known`, `partTranslations_of_new`: what is
  translated for the parts of a schema.
-/

namespace ApiGraph.Generation

open ApiGraph.GraphQL hiding Schema
open ApiGraph.OpenApi (RefOr Schema SchemaKind Components)

/-! ## Translations -/

/-- A schema and its type in a position. -/
structure Translation where
  position : Position
  schema : RefOr Schema
  type : TypeRef

/-- A schema that is to be translated, with a hint for the name of its type. -/
structure Task where
  position : Position
  schema : RefOr Schema
  hint : String

/-- What has been done for a task. -/
def Task.done (t : Task) (type : TypeRef) : Translation :=
  ⟨t.position, t.schema, type⟩

section Turns

variable (make : Task → Registry → Except Fault (TypeRef × Registry))

/-- Do one task after the other. -/
def madeInTurn : List Task → Registry → Except Fault (List Translation × Registry)
  | [], r => .ok ([], r)
  | t :: rest, r => do
    let (type, r) ← make t r
    let (made, r) ← madeInTurn rest r
    return (t.done type :: made, r)

/-- All that is translated while one task is done after the other. -/
def translatedInTurn (translated : Task → Registry → List Translation) :
    List Task → Registry → List Translation
  | [], _ => []
  | t :: rest, r =>
    match make t r with
    | .ok (_, r') => translated t r ++ translatedInTurn translated rest r'
    | .error _ => []

end Turns

/-- The visible properties of an object, as tasks. -/
def propertyTasks (s : Setting) (owner : String) (properties : List (String × RefOr Schema)) :
    List Task :=
  (s.visible properties).map fun p => ⟨s.position, p.2, propertyHint owner p.1⟩

/-- What is translated for the parts of a schema: for the items of an array, and for the visible
properties of an object that has no type yet. -/
def partTranslations
    (make : RefOr Schema → String → Registry → Except Fault (TypeRef × Registry))
    (translated : RefOr Schema → String → Registry → List Translation) (s : Setting)
    (component : Option String) (base : String) (kind : SchemaKind Schema) (r : Registry) :
    List Translation :=
  match kind with
  | .array (some items) => translated items (itemHint base) r
  | .object properties _ =>
    match component.bind (r.assigned? s.position) with
    | some _ => []
    | none =>
      let begun := beginObject s component base r
      translatedInTurn (fun t => make t.schema t.hint) (fun t => translated t.schema t.hint)
        (propertyTasks s (s.ownerName base begun.1) properties) begun.2
  | _ => []

/-- What is translated for a schema: first its parts, and then the schema itself. -/
def translations (s : Setting) : Nat → RefOr Schema → String → Registry → List Translation
  | 0, _, _, _ => []
  | bound + 1, schema, hint, r =>
    match typeOf s (bound + 1) schema hint r, s.resolve schema with
    | .ok (type, _), .ok (component, resolved) =>
      partTranslations (typeOf s bound) (translations s bound) s component (baseName component hint)
        resolved.kind r ++ [⟨s.position, schema, type⟩]
    | _, _ => []

/-! ## Where types stand -/

/-- The same schema has the type, or the type that excludes null. -/
def Translation.IsUsedAs (x y : Translation) : Prop :=
  y.position = x.position ∧ y.schema = x.schema ∧
    ∃ condition, y.type = x.type.excludeNullIf condition

/-- The schema got the type, whether null is excluded in the place where it stands or not. -/
def Lists (log : List Translation) (y : Translation) : Prop :=
  ∃ x ∈ log, x.IsUsedAs y

theorem Lists.mono {log log' : List Translation} {y : Translation} (h : Lists log y)
    (hsubset : log ⊆ log') : Lists log' y := by
  obtain ⟨x, hx, huse⟩ := h
  exact ⟨x, hsubset hx, huse⟩

theorem Lists.exists_mem {log : List Translation} {position : Position} {a : RefOr Schema}
    {type : TypeRef} (h : Lists log ⟨position, a, type⟩) :
    ∃ made condition, ⟨position, a, made⟩ ∈ log ∧ type = made.excludeNullIf condition := by
  obtain ⟨⟨_, _, made⟩, hx, rfl, rfl, condition, heq⟩ := h
  exact ⟨made, condition, hx, heq⟩

/-- The second schema is that of the items of an array, or of a visible property of an object, and
its type stands in the type of the first one. -/
inductive PartOf (c : Components) (r : Registry) (x : Translation) : Translation → Prop
  | item {component : Option String} {resolved : Schema} {items : RefOr Schema} {item : TypeRef}
      (hresolve : Setting.resolve ⟨c, x.position⟩ x.schema = .ok (component, resolved))
      (hkind : resolved.kind = .array (some items)) (htype : x.type = .list item) :
      PartOf c r x ⟨x.position, items, item⟩
  | member {component : Option String} {resolved : Schema}
      {properties : List (String × RefOr Schema)} {required : List String} {t : Composite}
      {p : String × RefOr Schema} {m : InputValue}
      (hresolve : Setting.resolve ⟨c, x.position⟩ x.schema = .ok (component, resolved))
      (hkind : resolved.kind = .object properties required) (htype : x.type = .named t.name)
      (hregistered : r.registered? x.position t.name = some (some t))
      (hmember : (p, m) ∈ (Setting.visible ⟨c, x.position⟩ properties).zip t.members) :
      PartOf c r x ⟨x.position, p.2, m.type⟩

/-- The second type stands in the first one. -/
def Above (c : Components) (r : Registry) (x y : Translation) : Prop :=
  ∃ z, PartOf c r x z ∧ y.IsUsedAs z

theorem PartOf.cases_of_resolve {c : Components} {r : Registry} {x y : Translation}
    {component : Option String} {resolved : Schema} (h : PartOf c r x y)
    (hresolve : Setting.resolve ⟨c, x.position⟩ x.schema = .ok (component, resolved)) :
    (∃ items item, resolved.kind = .array (some items) ∧ x.type = .list item ∧
      y = ⟨x.position, items, item⟩) ∨
      ∃ properties required t p m, resolved.kind = .object properties required ∧
        x.type = .named t.name ∧ r.registered? x.position t.name = some (some t) ∧
        (p, m) ∈ (Setting.visible ⟨c, x.position⟩ properties).zip t.members ∧
        y = ⟨x.position, p.2, m.type⟩ := by
  cases h with
  | item hresolve' hkind htype =>
    obtain ⟨-, rfl⟩ := Prod.mk.inj (Except.ok.inj (hresolve.symm.trans hresolve'))
    exact Or.inl ⟨_, _, hkind, htype, rfl⟩
  | member hresolve' hkind htype hregistered hmember =>
    obtain ⟨-, rfl⟩ := Prod.mk.inj (Except.ok.inj (hresolve.symm.trans hresolve'))
    exact Or.inr ⟨_, _, _, _, _, hkind, htype, hregistered, hmember, rfl⟩

/-! ## Tasks in turn -/

section Turns

variable {make : Task → Registry → Except Fault (TypeRef × Registry)} {l l' : List Task}
  {made : List Translation} {r r' : Registry}

theorem madeInTurn_cons {t : Task} :
    madeInTurn make (t :: l) r = .ok (made, r') ↔
      ∃ type r₁ rest, make t r = .ok (type, r₁) ∧ madeInTurn make l r₁ = .ok (rest, r') ∧
        made = t.done type :: rest := by
  refine bind_eq_ok.trans ⟨?_, ?_⟩
  · rintro ⟨⟨type, r₁⟩, hmake, h⟩
    obtain ⟨⟨rest, _⟩, hrest, heq⟩ := bind_eq_ok.mp h
    obtain ⟨rfl, rfl⟩ := Prod.mk.inj (Except.ok.inj heq)
    exact ⟨type, r₁, rest, hmake, hrest, rfl⟩
  · rintro ⟨type, r₁, rest, hmake, hrest, rfl⟩
    exact ⟨⟨type, r₁⟩, hmake, bind_eq_ok.mpr ⟨⟨rest, r'⟩, hrest, rfl⟩⟩

theorem madeInTurn_append {made' : List Translation} {r₁ : Registry}
    (h : madeInTurn make l r = .ok (made, r₁)) (h' : madeInTurn make l' r₁ = .ok (made', r')) :
    madeInTurn make (l ++ l') r = .ok (made ++ made', r') := by
  induction l generalizing made r with
  | nil =>
    obtain ⟨rfl, rfl⟩ := Prod.mk.inj (Except.ok.inj h)
    exact h'
  | cons t l ih =>
    obtain ⟨type, r₂, rest, hmake, hrest, rfl⟩ := madeInTurn_cons.mp h
    exact madeInTurn_cons.mpr ⟨type, r₂, rest ++ made', hmake, ih hrest, rfl⟩

theorem translatedInTurn_cons {translated : Task → Registry → List Translation} {t : Task}
    {type : TypeRef} {r₁ : Registry} (h : make t r = .ok (type, r₁)) :
    translatedInTurn make translated (t :: l) r =
      translated t r ++ translatedInTurn make translated l r₁ := by
  rw [translatedInTurn, h]

/-- What is said of tasks one by one is said of all of them in turn.  Before each task `P` is known
of the registry. -/
theorem inTurn_of_each {translated : Task → Registry → List Translation} {P : Registry → Prop}
    {R : List Translation → List Translation → Registry → Registry → Prop}
    (hnone : ∀ {r}, P r → R [] [] r r)
    (happend : ∀ {top tops log log' r r₁ r'}, R [top] log r r₁ → R tops log' r₁ r' →
      R (top :: tops) (log ++ log') r r')
    (hkept : ∀ {tops log r r'}, R tops log r r' → P r')
    (hone : ∀ t ∈ l, ∀ {r type r'}, make t r = .ok (type, r') → P r →
      R [t.done type] (translated t r) r r')
    (h : madeInTurn make l r = .ok (made, r')) (hr : P r) :
    R made (translatedInTurn make translated l r) r r' := by
  induction l generalizing made r with
  | nil =>
    obtain ⟨rfl, rfl⟩ := Prod.mk.inj (Except.ok.inj h)
    exact hnone hr
  | cons t l ih =>
    obtain ⟨type, r₁, rest, hmake, hrest, rfl⟩ := madeInTurn_cons.mp h
    obtain ⟨hhead, htail⟩ := List.forall_mem_cons.mp hone
    have hfirst := hhead hmake hr
    rw [translatedInTurn_cons hmake]
    exact happend hfirst (ih htail hrest (hkept hfirst))

end Turns

section Schemas

variable {s : Setting} {a : RefOr Schema} {component : Option String} {resolved : Schema}
  {bound : Nat} {hint base owner : String} {r r' : Registry} {type : TypeRef}
  {properties : List (String × RefOr Schema)} {required : List String}
  {members members' : List InputValue}
  {make : RefOr Schema → String → Registry → Except Fault (TypeRef × Registry)}
  {translated : RefOr Schema → String → Registry → List Translation}

/-- The types of members, with the schemas of the properties that they are for. -/
def memberUses (s : Setting) (properties : List (String × RefOr Schema))
    (members : List InputValue) : List Translation :=
  ((s.visible properties).zip members).map fun q => ⟨s.position, q.1.2, q.2.type⟩

/-- While members are made, the visible properties are translated one after the other. -/
theorem madeInTurn_of_membersOf
    (h : membersOf make s owner required members properties r = .ok (members', r')) :
    ∃ made new, madeInTurn (fun t => make t.schema t.hint) (propertyTasks s owner properties) r =
        .ok (made, r') ∧
      members' = members ++ new ∧
      List.Forall₂ Translation.IsUsedAs made (memberUses s properties new) := by
  induction properties generalizing members r with
  | nil =>
    obtain ⟨rfl, rfl⟩ := Prod.mk.inj (Except.ok.inj h)
    exact ⟨[], [], rfl, (List.append_nil _).symm, .nil⟩
  | cons p rest ih =>
    obtain ⟨property, schema⟩ := p
    cases hresolve : s.resolve schema with
    | error f =>
      rw [membersOf_of_unresolved hresolve] at h
      exact nomatch h
    | ok found =>
      obtain ⟨component, resolved⟩ := found
      unfold propertyTasks memberUses
      rw [visible_cons, shows_of_resolve hresolve]
      cases hhides : s.hides resolved.data with
      | true =>
        rw [membersOf_of_hides hresolve hhides] at h
        exact ih h
      | false =>
        rw [membersOf_of_shows hresolve hhides] at h
        obtain ⟨⟨type, r₁⟩, htype, h⟩ := bind_eq_ok.mp h
        obtain ⟨_, hadd, h⟩ := bind_eq_ok.mp h
        obtain ⟨-, rfl⟩ := addMember_eq_ok.mp hadd
        obtain ⟨made, new, hmade, rfl, huses⟩ := ih h
        refine ⟨⟨s.position, schema, type⟩ :: made,
          memberFor property required resolved type :: new, madeInTurn_cons.mpr ⟨type, r₁, made, htype, hmade, rfl⟩,
          List.append_assoc .., ?_⟩
        exact .cons ⟨rfl, rfl, _, rfl⟩ huses

theorem translations_eq (h : typeOf s (bound + 1) a hint r = .ok (type, r'))
    (hresolve : s.resolve a = .ok (component, resolved)) :
    translations s (bound + 1) a hint r =
      partTranslations (typeOf s bound) (translations s bound) s component
        (baseName component hint) resolved.kind r ++ [⟨s.position, a, type⟩] := by
  rw [translations, h, hresolve]

/-! ## The parts of a schema -/

theorem partTranslations_of_leaf (hleaf : (∃ name, scalarName? resolved.kind = some name) ∨
    isShapeless resolved.kind = true) :
    partTranslations make translated s component base resolved.kind r = [] := by
  cases hkind : resolved.kind with
  | array items => exact absurd hkind (kind_ne_array_of_leaf hleaf items)
  | object properties required =>
    unfold partTranslations
    simp only [propertyTasks, visible_of_leaf hleaf hkind]
    split
    · rfl
    · rfl
  | string | integer | number | boolean | any => rfl

theorem partTranslations_of_known {known : TypeRef}
    (hknown : component.bind (r.assigned? s.position) = some known) :
    partTranslations make translated s component base (.object properties required) r = [] := by
  unfold partTranslations
  rw [hknown]

theorem partTranslations_of_new (hnew : component.bind (r.assigned? s.position) = none) :
    partTranslations make translated s component base (.object properties required) r =
      translatedInTurn (fun t => make t.schema t.hint) (fun t => translated t.schema t.hint)
        (propertyTasks s (s.ownerName base (beginObject s component base r).1) properties)
        (beginObject s component base r).2 := by
  unfold partTranslations
  rw [hnew]

end Schemas

end ApiGraph.Generation
