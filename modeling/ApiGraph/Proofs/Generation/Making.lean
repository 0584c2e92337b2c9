import ApiGraph.Proofs.Generation.Names

/-!
# How types are made

`Makes s schema hint r type r'` says that `type` is the type of the schema, and that the registry is
`r` before and `r'` after everything that this takes.  There is one rule for each way to a type, and
no bound on the nesting: a derivation is as deep as the schemas are.  `MakesMembers` does the same
for the members that properties become.

Every type that `typeOf` finds is made in this way (`makes_of_typeOf`), so what the rules preserve
is preserved by all runs.
-/

namespace ApiGraph.Generation

open ApiGraph.GraphQL hiding Schema
open ApiGraph.OpenApi (RefOr Schema SchemaData SchemaKind)

/-! ## Outcomes of sequences -/

section Outcomes

variable {ε α β : Type} {x : Except ε α} {f : α → Except ε β}

theorem bind_eq_ok {b : β} : (x >>= f) = .ok b ↔ ∃ a, x = .ok a ∧ f a = .ok b := by
  cases x with
  | error e => simp [bind, Except.bind]
  | ok a => simp [bind, Except.bind]

theorem bind_eq_error {e : ε} :
    (x >>= f) = .error e ↔ x = .error e ∨ ∃ a, x = .ok a ∧ f a = .error e := by
  cases x with
  | error e => simp [bind, Except.bind]
  | ok a => simp [bind, Except.bind]

/-- What never fails does not matter for an error. -/
theorem bind_eq_error_of_ok {e : ε} (hf : ∀ a, ∃ b, f a = .ok b) :
    (x >>= f) = .error e ↔ x = .error e := by
  rw [bind_eq_error, or_iff_left]
  rintro ⟨a, -, ha⟩
  obtain ⟨b, hb⟩ := hf a
  rw [hb] at ha
  exact nomatch ha

theorem map_eq_ok {g : α → β} {b : β} :
    x.map g = .ok b ↔ ∃ a, x = .ok a ∧ g a = b := by
  cases x with
  | error e => simp [Except.map]
  | ok a => simp [Except.map]

theorem map_eq_error {g : α → β} {e : ε} : x.map g = .error e ↔ x = .error e := by
  cases x with
  | error e' => simp [Except.map]
  | ok a => simp [Except.map]

theorem mapError_eq_ok {g : ε → β} {a : α} : x.mapError g = .ok a ↔ x = .ok a := by
  cases x with
  | error e => simp [Except.mapError]
  | ok a => simp [Except.mapError]

theorem mapError_eq_error {g : ε → β} {e : β} :
    x.mapError g = .error e ↔ ∃ e', x = .error e' ∧ g e' = e := by
  cases x with
  | error e' => simp [Except.mapError]
  | ok a => simp [Except.mapError]

theorem guarded_eq_ok {condition : Prop} [Decidable condition] {e : ε} {a b : α} :
    (if condition then (.error e : Except ε α) else .ok a) = .ok b ↔ ¬ condition ∧ b = a := by
  by_cases h : condition
  · rw [if_pos h]
    exact ⟨nofun, fun hnot => absurd h hnot.1⟩
  · rw [if_neg h]
    exact ⟨fun heq => ⟨h, (Except.ok.inj heq).symm⟩, fun heq => congrArg _ heq.2.symm⟩

theorem guarded_eq_error {condition : Prop} [Decidable condition] {e f : ε} {a : α} :
    (if condition then (.error e : Except ε α) else .ok a) = .error f ↔ condition ∧ f = e := by
  by_cases h : condition
  · rw [if_pos h]
    exact ⟨fun heq => ⟨h, (Except.error.inj heq).symm⟩, fun heq => congrArg _ heq.2.symm⟩
  · rw [if_neg h]
    exact ⟨nofun, fun hand => absurd hand.1 h⟩

/-- Has one of the things the name? -/
theorem any_name_iff {f : α → String} {l : List α} {name : String} :
    (l.any fun k => f k == name) = true ↔ name ∈ l.map f := by
  rw [List.any_eq_true, List.mem_map]
  simp only [beq_iff_eq]

end Outcomes

/-! ## The rules -/

/-- The scalar for values of the kind. -/
def scalarName? {σ : Type} : SchemaKind σ → Option String
  | .string => some "String"
  | .integer => some "Int"
  | .number => some "Float"
  | .boolean => some "Boolean"
  | _ => none

/-- Have the values of the kind no shape that is known? -/
def isShapeless {σ : Type} : SchemaKind σ → Bool
  | .any => true
  | .object properties _ => properties.isEmpty
  | _ => false

/-- The member that a property becomes, given the type of its schema. -/
def memberFor (property : String) (required : List String) (resolved : Schema) (type : TypeRef) :
    InputValue :=
  { name := fieldName property
    type := type.excludeNullIf (required.contains property && !resolved.data.nullable)
    description := resolved.data.description }

mutual

inductive Makes (s : Setting) : RefOr Schema → String → Registry → TypeRef → Registry → Prop
  | scalar {schema : RefOr Schema} {hint : String} {r : Registry} {component : Option String}
      {resolved : Schema} {name : String}
      (hresolve : s.resolve schema = .ok (component, resolved))
      (hkind : scalarName? resolved.kind = some name) :
      Makes s schema hint r (.named name) r
  | json {schema : RefOr Schema} {hint : String} {r : Registry} {component : Option String}
      {resolved : Schema}
      (hresolve : s.resolve schema = .ok (component, resolved))
      (hkind : isShapeless resolved.kind = true) :
      Makes s schema hint r jsonType r.useJson
  | array {schema items : RefOr Schema} {hint : String} {r r' : Registry}
      {component itemComponent : Option String} {resolved resolvedItem : Schema} {item : TypeRef}
      (hresolve : s.resolve schema = .ok (component, resolved))
      (hkind : resolved.kind = .array (some items))
      (hitem : Makes s items (itemHint (baseName component hint)) r item r')
      (hitems : s.resolve items = .ok (itemComponent, resolvedItem)) :
      Makes s schema hint r (.list (item.excludeNullIf !resolvedItem.data.nullable)) r'
  /-- The component has its type already, which may still be under construction. -/
  | known {schema : RefOr Schema} {hint c : String} {r : Registry} {resolved : Schema}
      {properties : List (String × RefOr Schema)} {required : List String} {type : TypeRef}
      (hresolve : s.resolve schema = .ok (some c, resolved))
      (hkind : resolved.kind = .object properties required)
      (hknown : r.assigned? s.position c = some type) :
      Makes s schema hint r type r
  | new {schema : RefOr Schema} {hint : String} {r r' : Registry} {component : Option String}
      {resolved : Schema} {properties : List (String × RefOr Schema)} {required : List String}
      {members : List InputValue}
      (hresolve : s.resolve schema = .ok (component, resolved))
      (hkind : resolved.kind = .object properties required)
      (hnew : component.bind (r.assigned? s.position) = none)
      (hmembers : MakesMembers s
        (s.ownerName (baseName component hint)
          (beginObject s component (baseName component hint) r).1)
        required [] properties (beginObject s component (baseName component hint) r).2 members r') :
      Makes s schema hint r
        (endObject s component ⟨(beginObject s component (baseName component hint) r).1, members,
          resolved.data.description⟩ r').1
        (endObject s component ⟨(beginObject s component (baseName component hint) r).1, members,
          resolved.data.description⟩ r').2

/-- The properties become members, behind those that are there. -/
inductive MakesMembers (s : Setting) : String → List String → List InputValue →
    List (String × RefOr Schema) → Registry → List InputValue → Registry → Prop
  | nil {owner : String} {required : List String} {members : List InputValue} {r : Registry} :
      MakesMembers s owner required members [] r members r
  | hidden {owner property : String} {required : List String} {members members' : List InputValue}
      {schema : RefOr Schema} {rest : List (String × RefOr Schema)} {r r' : Registry}
      {component : Option String} {resolved : Schema}
      (hresolve : s.resolve schema = .ok (component, resolved))
      (hhides : s.hides resolved.data = true)
      (hrest : MakesMembers s owner required members rest r members' r') :
      MakesMembers s owner required members ((property, schema) :: rest) r members' r'
  | shown {owner property : String} {required : List String} {members members' : List InputValue}
      {schema : RefOr Schema} {rest : List (String × RefOr Schema)} {r r₁ r' : Registry}
      {component : Option String} {resolved : Schema} {type : TypeRef}
      (hresolve : s.resolve schema = .ok (component, resolved))
      (hshows : s.hides resolved.data = false)
      (hmakes : Makes s schema (propertyHint owner property) r type r₁)
      (hname : fieldName property ∉ members.map (·.name))
      (hrest : MakesMembers s owner required
        (members ++ [memberFor property required resolved type]) rest r₁ members' r') :
      MakesMembers s owner required members ((property, schema) :: rest) r members' r'

end

/-! ## Runs follow the rules -/

variable {s : Setting} {schema : RefOr Schema} {component : Option String} {resolved : Schema}

theorem addMember_eq_ok {members members' : List InputValue} {m : InputValue} :
    addMember members m = .ok members' ↔
      m.name ∉ members.map (·.name) ∧ members' = members ++ [m] := by
  rw [addMember, guarded_eq_ok, any_name_iff]

theorem addMember_eq_error {members : List InputValue} {m : InputValue} {f : Fault} :
    addMember members m = .error f ↔
      m.name ∈ members.map (·.name) ∧ f = .duplicateField m.name := by
  rw [addMember, guarded_eq_error, any_name_iff]

section Members

variable {make : RefOr Schema → String → Registry → Except Fault (TypeRef × Registry)}
  {owner property : String} {required : List String} {members : List InputValue}
  {rest : List (String × RefOr Schema)} {r : Registry}

theorem membersOf_of_unresolved {f : Fault} (hresolve : s.resolve schema = .error f) :
    membersOf make s owner required members ((property, schema) :: rest) r = .error f := by
  rw [membersOf, hresolve]
  rfl

theorem membersOf_of_hides (hresolve : s.resolve schema = .ok (component, resolved))
    (hhides : s.hides resolved.data = true) :
    membersOf make s owner required members ((property, schema) :: rest) r =
      membersOf make s owner required members rest r := by
  rw [membersOf, hresolve]
  exact if_pos hhides

theorem membersOf_of_shows (hresolve : s.resolve schema = .ok (component, resolved))
    (hshows : s.hides resolved.data = false) :
    membersOf make s owner required members ((property, schema) :: rest) r =
      (make schema (propertyHint owner property) r >>= fun found =>
        addMember members (memberFor property required resolved found.1) >>= fun members =>
          membersOf make s owner required members rest found.2) := by
  rw [membersOf, hresolve]
  exact if_neg (Bool.eq_false_iff.mp hshows)

/-- The properties are worked on one after the other. -/
theorem membersOf_append {before after : List (String × RefOr Schema)} :
    membersOf make s owner required members (before ++ after) r =
      (membersOf make s owner required members before r >>= fun done =>
        membersOf make s owner required done.1 after done.2) := by
  induction before generalizing members r with
  | nil => rfl
  | cons p rest ih =>
    obtain ⟨property, schema⟩ := p
    rw [List.cons_append]
    cases hresolve : s.resolve schema with
    | error f =>
      rw [membersOf_of_unresolved hresolve, membersOf_of_unresolved hresolve]
      rfl
    | ok found =>
      obtain ⟨component, resolved⟩ := found
      cases hhides : s.hides resolved.data with
      | true =>
        rw [membersOf_of_hides hresolve hhides, membersOf_of_hides hresolve hhides]
        exact ih
      | false =>
        rw [membersOf_of_shows hresolve hhides, membersOf_of_shows hresolve hhides, bind_assoc]
        refine bind_congr fun found => ?_
        rw [bind_assoc]
        exact bind_congr fun members => ih

theorem makesMembers_of_membersOf {members' : List InputValue} {r' : Registry}
    {properties : List (String × RefOr Schema)}
    (hmake : ∀ {schema hint r type r'}, make schema hint r = .ok (type, r') →
      Makes s schema hint r type r')
    (h : membersOf make s owner required members properties r = .ok (members', r')) :
    MakesMembers s owner required members properties r members' r' := by
  induction properties generalizing members r with
  | nil =>
    obtain ⟨rfl, rfl⟩ := Prod.mk.inj (Except.ok.inj h)
    exact .nil
  | cons p rest ih =>
    obtain ⟨property, schema⟩ := p
    cases hresolve : s.resolve schema with
    | error f =>
      rw [membersOf_of_unresolved hresolve] at h
      exact nomatch h
    | ok found =>
      obtain ⟨component, resolved⟩ := found
      cases hhides : s.hides resolved.data with
      | true =>
        rw [membersOf_of_hides hresolve hhides] at h
        exact .hidden hresolve hhides (ih h)
      | false =>
        rw [membersOf_of_shows hresolve hhides] at h
        obtain ⟨⟨type, r₁⟩, htype, h⟩ := bind_eq_ok.mp h
        obtain ⟨_, hadd, h⟩ := bind_eq_ok.mp h
        obtain ⟨hname, rfl⟩ := addMember_eq_ok.mp hadd
        exact .shown hresolve hhides (hmake htype) hname (ih h)

end Members

/-- The kinds of schemas, as `typeOf` tells them apart. -/
theorem kind_cases {σ : Type} (kind : SchemaKind σ) :
    (∃ name, scalarName? kind = some name) ∨ isShapeless kind = true ∨ kind = .array none ∨
      (∃ items, kind = .array (some items)) ∨
      ∃ properties required, kind = .object properties required ∧ properties.isEmpty = false := by
  cases kind with
  | string => exact Or.inl ⟨_, rfl⟩
  | integer => exact Or.inl ⟨_, rfl⟩
  | number => exact Or.inl ⟨_, rfl⟩
  | boolean => exact Or.inl ⟨_, rfl⟩
  | any => exact Or.inr (Or.inl rfl)
  | array items =>
    cases items with
    | none => exact Or.inr (Or.inr (Or.inl rfl))
    | some items => exact Or.inr (Or.inr (Or.inr (Or.inl ⟨items, rfl⟩)))
  | object properties required =>
    cases h : properties.isEmpty with
    | true => exact Or.inr (Or.inl h)
    | false => exact Or.inr (Or.inr (Or.inr (Or.inr ⟨properties, required, rfl, h⟩)))

section Types

variable {bound : Nat} {hint : String} {r : Registry}

theorem typeOf_of_unresolved {f : Fault} (hresolve : s.resolve schema = .error f) :
    typeOf s (bound + 1) schema hint r = .error f := by
  rw [typeOf, hresolve]
  rfl

theorem typeOf_of_scalar {name : String} (hresolve : s.resolve schema = .ok (component, resolved))
    (hkind : scalarName? resolved.kind = some name) :
    typeOf s (bound + 1) schema hint r = .ok (.named name, r) := by
  rw [typeOf, hresolve]
  simp only [bind, Except.bind]
  cases hk : resolved.kind <;> rw [hk] at hkind <;> cases hkind <;> rfl

theorem typeOf_of_shapeless (hresolve : s.resolve schema = .ok (component, resolved))
    (hkind : isShapeless resolved.kind = true) :
    typeOf s (bound + 1) schema hint r = .ok (jsonType, r.useJson) := by
  rw [typeOf, hresolve]
  simp only [bind, Except.bind]
  cases hk : resolved.kind with
  | any => rfl
  | object properties required =>
    rw [hk] at hkind
    exact if_pos hkind
  | string | integer | number | boolean | array _ =>
    rw [hk] at hkind
    exact nomatch hkind

theorem typeOf_of_array_none (hresolve : s.resolve schema = .ok (component, resolved))
    (hkind : resolved.kind = .array none) :
    typeOf s (bound + 1) schema hint r = .error (.problem .arrayWithoutItems) := by
  rw [typeOf, hresolve]
  simp only [bind, Except.bind, hkind]

theorem typeOf_of_array {items : RefOr Schema}
    (hresolve : s.resolve schema = .ok (component, resolved))
    (hkind : resolved.kind = .array (some items)) :
    typeOf s (bound + 1) schema hint r =
      (typeOf s bound items (itemHint (baseName component hint)) r >>= fun found =>
        s.resolve items >>= fun resolvedItem =>
          .ok (.list (found.1.excludeNullIf !resolvedItem.2.data.nullable), found.2)) := by
  rw [typeOf, hresolve]
  simp only [bind, Except.bind, hkind]
  rfl

theorem typeOf_of_object {properties : List (String × RefOr Schema)} {required : List String}
    (hresolve : s.resolve schema = .ok (component, resolved))
    (hkind : resolved.kind = .object properties required) (hsome : properties.isEmpty = false) :
    typeOf s (bound + 1) schema hint r =
      objectType (typeOf s bound) s component (baseName component hint) resolved.data properties
        required r := by
  rw [typeOf, hresolve]
  simp only [bind, Except.bind, hkind, hsome]
  rfl

theorem makes_of_objectType
    {make : RefOr Schema → String → Registry → Except Fault (TypeRef × Registry)}
    (hmake : ∀ {schema hint r type r'}, make schema hint r = .ok (type, r') →
      Makes s schema hint r type r')
    {properties : List (String × RefOr Schema)} {required : List String} {r' : Registry}
    {type : TypeRef} (hresolve : s.resolve schema = .ok (component, resolved))
    (hkind : resolved.kind = .object properties required)
    (h : objectType make s component (baseName component hint) resolved.data properties required
      r = .ok (type, r')) :
    Makes s schema hint r type r' := by
  unfold objectType at h
  cases hknown : component.bind (r.assigned? s.position) with
  | some known =>
    rw [hknown] at h
    obtain ⟨c, rfl, hassigned⟩ := Option.bind_eq_some_iff.mp hknown
    obtain ⟨rfl, rfl⟩ := Prod.mk.inj (Except.ok.inj h)
    exact .known hresolve hkind hassigned
  | none =>
    rw [hknown] at h
    obtain ⟨⟨members, r₂⟩, hmembers, h⟩ := bind_eq_ok.mp h
    obtain ⟨rfl, rfl⟩ := Prod.mk.inj (Except.ok.inj h)
    exact .new hresolve hkind hknown (makesMembers_of_membersOf hmake hmembers)

theorem makes_of_typeOf {type : TypeRef} {r' : Registry}
    (h : typeOf s bound schema hint r = .ok (type, r')) : Makes s schema hint r type r' := by
  induction bound generalizing schema hint r type r' with
  | zero => exact nomatch h
  | succ bound ih =>
    cases hresolve : s.resolve schema with
    | error f =>
      rw [typeOf_of_unresolved hresolve] at h
      exact nomatch h
    | ok found =>
      obtain ⟨component, resolved⟩ := found
      obtain ⟨_, hkind⟩ | hkind | hkind | ⟨items, hkind⟩ | ⟨properties, required, hkind, hsome⟩ :=
        kind_cases resolved.kind
      · rw [typeOf_of_scalar hresolve hkind] at h
        obtain ⟨rfl, rfl⟩ := Prod.mk.inj (Except.ok.inj h)
        exact .scalar hresolve hkind
      · rw [typeOf_of_shapeless hresolve hkind] at h
        obtain ⟨rfl, rfl⟩ := Prod.mk.inj (Except.ok.inj h)
        exact .json hresolve hkind
      · rw [typeOf_of_array_none hresolve hkind] at h
        exact nomatch h
      · rw [typeOf_of_array hresolve hkind] at h
        obtain ⟨⟨item, r₁⟩, hitem, h⟩ := bind_eq_ok.mp h
        obtain ⟨⟨itemComponent, resolvedItem⟩, hitems, h⟩ := bind_eq_ok.mp h
        obtain ⟨rfl, rfl⟩ := Prod.mk.inj (Except.ok.inj h)
        exact .array hresolve hkind (ih hitem) hitems
      · rw [typeOf_of_object hresolve hkind hsome] at h
        exact makes_of_objectType ih hresolve hkind h

end Types

end ApiGraph.Generation
