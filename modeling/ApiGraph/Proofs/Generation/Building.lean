import ApiGraph.Proofs.Generation.Coverage
import ApiGraph.Proofs.Generation.Meaning
import Mathlib.Logic.Relation

/-!
# What is built for a type

`Built c uses r r'` says how the registry `r'` came out of `r` when something was made that refers
to the names in `uses`: whatever is new in it is finished, is a type for its schema, and is reached
from one of these names.  A type that was begun before, by somebody else, is still in the state in
which it was found.

Types are referred to while they are under construction, and given up when they turn out to have no
members.  That does no harm, because a type without members is one for which no other type was made:
nothing can have referred to it.

* `Makes.built`: every rule builds in this way, and makes a type for the schema.
* `MakesField.built`: so does every endpoint that becomes a field.
-/

namespace ApiGraph.Generation

open ApiGraph.GraphQL hiding Schema
open ApiGraph.OpenApi (RefOr Schema SchemaKind Components Endpoint EndpointParameter EndpointBody)

/-! ## Names that are reached -/

/-- The finished type of the first name has a member that refers to the second. -/
def Registry.Refers (r : Registry) (position : Position) (a b : String) : Prop :=
  ∃ t, r.registered? position a = some (some t) ∧ ∃ m ∈ t.members, m.type.leaf = b

/-- The second name is reached from the first through members of finished types. -/
def Registry.Reaches (r : Registry) (position : Position) : String → String → Prop :=
  Relation.ReflTransGen (r.Refers position)

/-- The name is reached from one in `uses`. -/
def Used (uses : Position → String → Prop) (r : Registry) (position : Position) (name : String) :
    Prop :=
  ∃ root, uses position root ∧ r.Reaches position root name

/-- One of the types, which stand in the position, is made from the name. -/
def UsesOf (position : Position) (types : List TypeRef) (p : Position) (name : String) : Prop :=
  p = position ∧ ∃ type ∈ types, type.leaf = name

@[simp] theorem leaf_excludeNullIf (type : TypeRef) (condition : Bool) :
    (type.excludeNullIf condition).leaf = type.leaf := by
  cases type <;> cases condition <;> rfl

theorem Registry.Reaches.mono {r r' : Registry} {position : Position} {a b : String}
    (h : r.Reaches position a b) (hkeeps : r.Keeps r') : r'.Reaches position a b := by
  refine Relation.ReflTransGen.mono ?_ _ _ h
  rintro a b ⟨t, ht, hm⟩
  exact ⟨t, hkeeps.finished position a t ht, hm⟩

theorem Used.mono {uses uses' : Position → String → Prop} {r r' : Registry} {position : Position}
    {name : String} (h : Used uses r position name) (hkeeps : r.Keeps r')
    (huses : ∀ p x, uses p x → uses' p x) : Used uses' r' position name := by
  obtain ⟨root, hroot, hreaches⟩ := h
  exact ⟨root, huses position root hroot, hreaches.mono hkeeps⟩

theorem Used.of_uses {uses : Position → String → Prop} {r : Registry} {position : Position}
    {name : String} (h : uses position name) : Used uses r position name :=
  ⟨name, h, .refl⟩

/-- What the members of a finished type refer to is reached through the type. -/
theorem Used.through {r r' : Registry} {position : Position} {t : Composite}
    (hkeeps : r.Keeps r') (hregistered : r'.registered? position t.name = some (some t))
    {p : Position} {name : String}
    (h : Used (UsesOf position (t.members.map (·.type))) r p name) :
    Used (UsesOf position [.named t.name]) r' p name := by
  obtain ⟨root, ⟨rfl, type, htype, rfl⟩, hreaches⟩ := h
  obtain ⟨m, hm, rfl⟩ := List.mem_map.mp htype
  have hstep : r'.Refers p t.name m.type.leaf := ⟨t, hregistered, m, hm, rfl⟩
  exact ⟨t.name, ⟨rfl, _, List.mem_singleton_self _, rfl⟩, .head hstep (hreaches.mono hkeeps)⟩

/-! ## Building -/

structure Built (c : Components) (uses : Position → String → Prop) (r r' : Registry) : Prop where
  keeps : r.Keeps r'
  wellNamed : r'.WellNamed
  done : ∀ position name type, r'.assigned? position name = some type →
    r.assigned? position name = some type ∨ ComponentDone ⟨c, position⟩ r' name type
  made : ∀ position name e, r'.registered? position name = some e →
    r.registered? position name = some e ∨
      ∃ t, e = some t ∧ Made ⟨c, position⟩ r' t ∧ Used uses r' position name
  json : r'.usesJson = true → r.usesJson = true ∨ ∃ position, Used uses r' position jsonName

namespace Built

variable {c : Components} {uses uses' : Position → String → Prop} {r r₁ r' : Registry}

theorem refl (h : r.WellNamed) : Built c uses r r :=
  ⟨.refl r, h, fun _ _ _ => Or.inl, fun _ _ _ => Or.inl, Or.inl⟩

theorem mono (h : Built c uses r r') (huses : ∀ p x, uses p x → uses' p x) :
    Built c uses' r r' := by
  refine ⟨h.keeps, h.wellNamed, h.done, fun position name e he => ?_, fun hjson => ?_⟩
  · refine (h.made position name e he).imp_right ?_
    rintro ⟨t, rfl, hmade, hused⟩
    exact ⟨t, rfl, hmade, hused.mono (.refl r') huses⟩
  · refine (h.json hjson).imp_right ?_
    rintro ⟨position, hused⟩
    exact ⟨position, hused.mono (.refl r') huses⟩

theorem trans (h : Built c uses r r₁) (h' : Built c uses r₁ r') : Built c uses r r' := by
  refine ⟨h.keeps.trans h'.keeps, h'.wellNamed, fun position name type htype => ?_,
    fun position name e he => ?_, fun hjson => ?_⟩
  · rcases h'.done position name type htype with htype | hdone
    · exact (h.done position name type htype).imp_right fun hdone => hdone.mono h'.keeps
    · exact Or.inr hdone
  · rcases h'.made position name e he with he | hmade
    · refine (h.made position name e he).imp_right ?_
      rintro ⟨t, rfl, hmade, hused⟩
      exact ⟨t, rfl, hmade.mono h'.keeps, hused.mono h'.keeps fun _ _ => id⟩
    · exact Or.inr hmade
  · rcases h'.json hjson with hjson | hused
    · refine (h.json hjson).imp_right ?_
      rintro ⟨position, hused⟩
      exact ⟨position, hused.mono h'.keeps fun _ _ => id⟩
    · exact Or.inr hused

end Built

variable {s : Setting}

/-! ## Objects -/

section Objects

variable {component : Option String} {base owner : String} {r r₂ : Registry} {a : RefOr Schema}
  {resolved : Schema} {properties : List (String × RefOr Schema)} {required : List String}
  {members : List InputValue} {description : Option String}

theorem typeFor_of_object {type : TypeRef} (hresolve : s.resolve a = .ok (component, resolved))
    (hkind : resolved.kind = .object properties required)
    (hassigned : ∀ c, component = some c → r.assigned? s.position c = some type)
    (hobject : ObjectFor s r properties required type) : TypeFor s r a type := by
  cases component with
  | none => exact .inlined hresolve hkind hobject
  | some c => exact .component hresolve hkind (hassigned c rfl)

/-- What a component is depends on its name alone, so one reference to it settles what it is. -/
theorem componentDone_of_object {name : String} {type : TypeRef}
    (hresolve : s.resolve a = .ok (some name, resolved))
    (hkind : resolved.kind = .object properties required)
    (hobject : ObjectFor s r properties required type) : ComponentDone s r name type := by
  intro a' resolved' properties' required' hresolve' hkind'
  obtain ⟨rfl, rfl⟩ := object_eq_of_resolve hresolve hkind hresolve' hkind'
  exact hobject

/-- When the type of an object is assigned to its component, that component is done. -/
theorem assigned_or_done {r' : Registry} {type type' : TypeRef} {p : Position} {c : String}
    (hresolve : s.resolve a = .ok (component, resolved))
    (hkind : resolved.kind = .object properties required)
    (hobject : ObjectFor s r' properties required type)
    (h : (if p = s.position ∧ component = some c then some type else r.assigned? p c) =
      some type') :
    r.assigned? p c = some type' ∨ ComponentDone ⟨s.components, p⟩ r' c type' := by
  split at h
  · rename_i hown
    obtain ⟨rfl, rfl⟩ := hown
    rw [← Option.some.inj h]
    exact Or.inr (componentDone_of_object hresolve hkind hobject)
  · exact Or.inl h

/-- Without visible properties, no types are made for properties. -/
theorem MakesMembers.eq_of_hidden {members members' : List InputValue} {r r' : Registry}
    {properties : List (String × RefOr Schema)}
    (hmakes : MakesMembers s owner required members properties r members' r')
    (h : s.visible properties = []) : members' = members ∧ r' = r :=
  match hmakes with
  | .nil => ⟨rfl, rfl⟩
  | .hidden hresolve hhides hrest => by
    rw [visible_cons, shows_of_resolve hresolve, hhides] at h
    exact hrest.eq_of_hidden h
  | .shown hresolve hshows _ _ _ => by
    rw [visible_cons, shows_of_resolve hresolve, hshows] at h
    exact nomatch h

/-- A type that is given up leaves no trace but the use of `JSON`. -/
theorem built_of_hidden (hwell : r.WellNamed) (hresolve : s.resolve a = .ok (component, resolved))
    (hkind : resolved.kind = .object properties required)
    (hnew : component.bind (r.assigned? s.position) = none)
    (hvisible : s.visible properties = []) :
    let ended := endObject s component ⟨claimedName s component base r, [], description⟩
      (beginObject s component base r).2
    Built s.components (UsesOf s.position [ended.1]) r ended.2 ∧ TypeFor s ended.2 a ended.1 := by
  intro ended
  have hended : ended = (jsonType, (((beginObject s component base r).2.discard s.position
      (claimedName s component base r)).useJson).assignTo s.position component jsonType) :=
    endObject_of_nil rfl
  have hextends : r.Extends ended.2 := extends_of_object hnew rfl (.refl _)
  have hwell' : ended.2.WellNamed :=
    hwell.beginObject.endObject (Registry.mem_keys (registered?_claimedName (.refl _)))
  have hassigned : ∀ p c, ended.2.assigned? p c =
      if p = s.position ∧ component = some c then some jsonType else r.assigned? p c := by
    intro p c
    by_cases hown : p = s.position ∧ component = some c
    · rw [hended, Registry.assigned?_assignTo, if_pos hown, if_pos hown]
    · rw [if_neg hown, assigned?_endObject hown, assigned?_beginObject, if_neg hown]
  have hregistered : ∀ p n e, ended.2.registered? p n = some e → r.registered? p n = some e := by
    intro p n e he
    by_cases hown : p = s.position ∧ n = claimedName s component base r
    · rw [hended, Registry.registered?_assignTo, Registry.registered?_useJson,
        Registry.registered?_discard, if_pos hown] at he
      exact nomatch he
    · rw [registered?_endObject hown, registered?_beginObject, if_neg hown] at he
      exact he
  have hobject : ObjectFor s ended.2 properties required ended.1 := by
    rw [hended]
    exact .hidden hvisible (Registry.usesJson_assignTo ..)
  have htype : ended.1 = jsonType := congrArg Prod.fst hended
  refine ⟨?_, typeFor_of_object hresolve hkind (fun c hc => ?_) hobject⟩
  · constructor
    case keeps => exact hextends.keeps hwell
    case wellNamed => exact hwell'
    case done =>
      intro p c type hc
      rw [hassigned, ← htype] at hc
      exact assigned_or_done hresolve hkind hobject hc
    case made => exact fun p n e he => Or.inl (hregistered p n e he)
    case json =>
      intro _
      refine Or.inr ⟨s.position, .of_uses ⟨rfl, ended.1, List.mem_cons_self .., ?_⟩⟩
      rw [htype]
      rfl
  · rw [hassigned, if_pos ⟨rfl, hc⟩, htype]

/-- A type that is finished has been registered from its beginning on. -/
theorem built_of_shown (hwell : r.WellNamed) (hresolve : s.resolve a = .ok (component, resolved))
    (hkind : resolved.kind = .object properties required)
    (hnew : component.bind (r.assigned? s.position) = none)
    (hextends : (beginObject s component base r).2.Extends r₂)
    (hbuilt : Built s.components (UsesOf s.position (members.map (·.type)))
      (beginObject s component base r).2 r₂)
    (hfor : MembersFor s r₂ required (s.visible properties) members) (hsome : members ≠ []) :
    let ended := endObject s component ⟨claimedName s component base r, members, description⟩ r₂
    Built s.components (UsesOf s.position [ended.1]) r ended.2 ∧ TypeFor s ended.2 a ended.1 := by
  intro ended
  let t : Composite := ⟨claimedName s component base r, members, description⟩
  have hended : ended = (.named t.name, r₂.finish s.position t) := endObject_of_ne_nil hsome
  have hkeeps : r₂.Keeps ended.2 := by
    rw [hended]
    exact .finish (registered?_claimedName hextends)
  have hwell' : ended.2.WellNamed :=
    hbuilt.wellNamed.endObject (Registry.mem_keys (registered?_claimedName hextends))
  have hassigned : ∀ p c, ended.2.assigned? p c = r₂.assigned? p c := by
    intro p c
    rw [hended]
    exact Registry.assigned?_setTypes ..
  have hregistered : ended.2.registered? s.position t.name = some (some t) := by
    rw [hended, Registry.registered?_finish]
    exact if_pos ⟨rfl, rfl⟩
  have htype : ended.1 = .named t.name := congrArg Prod.fst hended
  have hvisible : s.visible properties ≠ [] := fun h => hsome (hfor.eq_nil_iff.mpr h)
  have hobject : ObjectFor s ended.2 properties required ended.1 := by
    rw [htype]
    exact .shown hvisible hregistered (hfor.mono hkeeps)
  have hused : Used (UsesOf s.position [ended.1]) ended.2 s.position t.name := by
    rw [htype]
    exact .of_uses ⟨rfl, _, List.mem_singleton_self _, rfl⟩
  have hthrough : ∀ {p n}, Used (UsesOf s.position (members.map (·.type))) r₂ p n →
      Used (UsesOf s.position [ended.1]) ended.2 p n := by
    intro p n h
    rw [htype]
    exact Used.through hkeeps hregistered h
  refine ⟨?_, typeFor_of_object hresolve hkind (fun c hc => ?_) hobject⟩
  · constructor
    case keeps => exact (extends_of_object hnew rfl hextends).keeps hwell
    case wellNamed => exact hwell'
    case done =>
      intro p c type hc
      rw [hassigned] at hc
      rcases hbuilt.done p c type hc with hc | hdone
      · rw [assigned?_beginObject, ← htype] at hc
        exact assigned_or_done hresolve hkind hobject hc
      · exact Or.inr (hdone.mono hkeeps)
    case made =>
      intro p n e he
      by_cases hown : p = s.position ∧ n = t.name
      · obtain ⟨rfl, rfl⟩ := hown
        rw [hregistered] at he
        have hmade : Made s ended.2 t := ⟨hsome, required, s.visible properties, hfor.mono hkeeps⟩
        exact Or.inr ⟨t, (Option.some.inj he).symm, hmade, hused⟩
      · rw [registered?_endObject hown] at he
        rcases hbuilt.made p n e he with he | ⟨t', rfl, hmade, hused'⟩
        · rw [registered?_beginObject, if_neg hown] at he
          exact Or.inl he
        · exact Or.inr ⟨t', rfl, hmade.mono hkeeps, hthrough hused'⟩
    case json =>
      intro hjson
      rw [hended, Registry.finish, Registry.usesJson_setTypes] at hjson
      rcases hbuilt.json hjson with hjson | ⟨p, hused'⟩
      · rw [usesJson_beginObject] at hjson
        exact Or.inl hjson
      · exact Or.inr ⟨p, hthrough hused'⟩
  · rw [hassigned, htype]
    refine hbuilt.keeps.assigned s.position c _ ?_
    rw [assigned?_beginObject, if_pos ⟨rfl, hc⟩]

theorem built_of_object (hwell : r.WellNamed) (hresolve : s.resolve a = .ok (component, resolved))
    (hkind : resolved.kind = .object properties required)
    (hnew : component.bind (r.assigned? s.position) = none)
    (hmakes : MakesMembers s owner required [] properties (beginObject s component base r).2
      members r₂)
    (hbuilt : Built s.components (UsesOf s.position (members.map (·.type)))
      (beginObject s component base r).2 r₂)
    (hfor : MembersFor s r₂ required (s.visible properties) members) :
    let ended := endObject s component ⟨claimedName s component base r, members, description⟩ r₂
    Built s.components (UsesOf s.position [ended.1]) r ended.2 ∧ TypeFor s ended.2 a ended.1 := by
  by_cases hempty : members = []
  · have hvisible := hfor.eq_nil_iff.mp hempty
    obtain ⟨rfl, rfl⟩ := hmakes.eq_of_hidden hvisible
    exact built_of_hidden hwell hresolve hkind hnew hvisible
  · exact built_of_shown hwell hresolve hkind hnew hmakes.extends hbuilt hfor hempty

end Objects

/-! ## Types -/

theorem built_useJson {c : Components} {r : Registry} (h : r.WellNamed) (position : Position) :
    Built c (UsesOf position [jsonType]) r r.useJson := by
  have hextends := Registry.Extends.useJson r
  refine ⟨hextends.keeps h, h.of_types (fun _ => Registry.types_useJson ..) hextends.taken,
    fun _ _ _ => Or.inl, fun p n e he => ?_, fun _ => ?_⟩
  · rw [Registry.registered?_useJson] at he
    exact Or.inl he
  · exact Or.inr ⟨position, .of_uses ⟨rfl, jsonType, List.mem_cons_self .., rfl⟩⟩

/-- What a type is made from does not depend on where null is excluded. -/
theorem usesOf_of_leaf {position : Position} {type type' : TypeRef} {types : List TypeRef}
    (hmem : type' ∈ types) (hleaf : type'.leaf = type.leaf) {p : Position} {x : String}
    (huses : UsesOf position [type] p x) : UsesOf position types p x := by
  obtain ⟨rfl, t, ht, rfl⟩ := huses
  refine ⟨rfl, type', hmem, ?_⟩
  rw [List.mem_singleton.mp ht, hleaf]

theorem usesOf_added {position : Position} {type : TypeRef} {members rest : List InputValue}
    {m : InputValue} (hleaf : m.type.leaf = type.leaf) {p : Position} {x : String}
    (huses : UsesOf position [type] p x) :
    UsesOf position ((members ++ [m] ++ rest).map (·.type)) p x :=
  usesOf_of_leaf (List.mem_map.mpr ⟨m, by simp, rfl⟩) hleaf huses

mutual

/-- Every rule builds what it refers to, and makes a type for the schema. -/
theorem Makes.built {schema : RefOr Schema} {hint : String} {r r' : Registry} {type : TypeRef}
    (hmakes : Makes s schema hint r type r') (h : r.WellNamed) :
    Built s.components (UsesOf s.position [type]) r r' ∧ TypeFor s r' schema type :=
  match hmakes with
  | .scalar hresolve hkind => ⟨.refl h, .scalar hresolve hkind⟩
  | .json hresolve hkind => ⟨built_useJson h s.position, .json hresolve hkind rfl⟩
  | .array hresolve hkind hitem hitems => by
    obtain ⟨hbuilt, htype⟩ := hitem.built h
    refine ⟨hbuilt.mono fun p x => ?_, .array hresolve hkind htype hitems⟩
    exact usesOf_of_leaf (List.mem_singleton_self _) (by rw [TypeRef.leaf, leaf_excludeNullIf])
  | .known hresolve hkind hknown => ⟨.refl h, .component hresolve hkind hknown⟩
  | .new hresolve hkind hnew hmembers => by
    obtain ⟨hbuilt, made, heq, hfor⟩ := hmembers.built h.beginObject
    rw [List.nil_append] at heq
    subst heq
    exact built_of_object h hresolve hkind hnew hmembers hbuilt hfor

theorem MakesMembers.built {owner : String} {required : List String}
    {members members' : List InputValue} {properties : List (String × RefOr Schema)}
    {r r' : Registry}
    (hmakes : MakesMembers s owner required members properties r members' r') (h : r.WellNamed) :
    Built s.components (UsesOf s.position (members'.map (·.type))) r r' ∧
      ∃ made, members' = members ++ made ∧
        MembersFor s r' required (s.visible properties) made :=
  match hmakes with
  | .nil => ⟨.refl h, [], (List.append_nil _).symm, .nil⟩
  | .hidden hresolve hhides hrest => by
    rw [visible_cons, shows_of_resolve hresolve, hhides]
    exact hrest.built h
  | .shown hresolve hshows hmember _ hrest => by
    obtain ⟨hfirst, htype⟩ := hmember.built h
    obtain ⟨hothers, made, heq, hfor⟩ := hrest.built hfirst.wellNamed
    rw [visible_cons, shows_of_resolve hresolve, hshows, heq]
    rw [heq] at hothers
    refine ⟨(hfirst.mono fun p x => ?_).trans hothers, _ :: made, List.append_assoc ..,
      .cons hresolve (htype.mono hothers.keeps) hfor⟩
    exact usesOf_added (leaf_excludeNullIf ..)

end

/-! ## Fields -/

/-- The type is one for the schema, or `String` if there is none. -/
def OptionalTypeFor (s : Setting) (r : Registry) : Option (RefOr Schema) → TypeRef → Prop
  | none, type => type = .named "String"
  | some a, type => TypeFor s r a type

/-- The schemas of the arguments of an endpoint: those of its parameters, and that of its body. -/
def argumentSchemas (e : Endpoint) : List (Option (RefOr Schema)) :=
  e.parameters.map (·.schema) ++ (e.body.map fun b => some b.schema).toList

/-- The argument is one for the schema. -/
def ArgumentFor (c : Components) (r : Registry) (schema : Option (RefOr Schema))
    (argument : InputValue) : Prop :=
  ∃ type condition, argument.type = type.excludeNullIf condition ∧
    OptionalTypeFor ⟨c, .input⟩ r schema type

/-- The field is one for the endpoint. -/
structure FieldFor (c : Components) (r : Registry) (e : Endpoint) (f : Field) : Prop where
  name : f.name = e.fieldName
  type : OptionalTypeFor ⟨c, .output⟩ r e.response f.type
  arguments : List.Forall₂ (ArgumentFor c r) (argumentSchemas e) f.arguments

/-- The names that a field refers to. -/
def FieldUses (f : Field) (p : Position) (name : String) : Prop :=
  UsesOf .output [f.type] p name ∨ UsesOf .input (f.arguments.map (·.type)) p name

variable {c : Components} {r r' : Registry}

theorem OptionalTypeFor.mono {schema : Option (RefOr Schema)} {type : TypeRef}
    (h : OptionalTypeFor s r schema type) (hkeeps : r.Keeps r') :
    OptionalTypeFor s r' schema type := by
  cases schema with
  | none => exact h
  | some a => exact TypeFor.mono h hkeeps

theorem ArgumentFor.mono {schema : Option (RefOr Schema)} {argument : InputValue}
    (h : ArgumentFor c r schema argument) (hkeeps : r.Keeps r') :
    ArgumentFor c r' schema argument := by
  obtain ⟨type, condition, heq, htype⟩ := h
  exact ⟨type, condition, heq, htype.mono hkeeps⟩

theorem FieldFor.mono {e : Endpoint} {f : Field} (h : FieldFor c r e f) (hkeeps : r.Keeps r') :
    FieldFor c r' e f :=
  ⟨h.name, h.type.mono hkeeps, h.arguments.imp fun _ _ harg => harg.mono hkeeps⟩

theorem MakesOptional.built {position : Position} {schema : Option (RefOr Schema)} {hint : String}
    {type : TypeRef} (hmakes : MakesOptional c position schema hint r type r') (h : r.WellNamed) :
    Built c (UsesOf position [type]) r r' ∧ OptionalTypeFor ⟨c, position⟩ r' schema type := by
  cases hmakes with
  | none => exact ⟨.refl h, rfl⟩
  | some hmakes => exact hmakes.built h

theorem MakesArguments.built {base : String} {ps : List EndpointParameter}
    {arguments arguments' : List InputValue}
    (hmakes : MakesArguments c base arguments ps r arguments' r') (h : r.WellNamed) :
    Built c (UsesOf .input (arguments'.map (·.type))) r r' ∧
      ∃ made, arguments' = arguments ++ made ∧
        List.Forall₂ (ArgumentFor c r') (ps.map (·.schema)) made := by
  induction hmakes with
  | nil => exact ⟨.refl h, [], (List.append_nil _).symm, .nil⟩
  | cons htype _ _ ih =>
    obtain ⟨hfirst, hfor⟩ := htype.built h
    obtain ⟨hothers, made, rfl, hmade⟩ := ih hfirst.wellNamed
    refine ⟨(hfirst.mono fun p x => ?_).trans hothers, _ :: made, List.append_assoc ..,
      .cons ⟨_, _, rfl, hfor.mono hothers.keeps⟩ hmade⟩
    exact usesOf_added (leaf_excludeNullIf ..)

theorem MakesBody.built {base : String} {body : Option EndpointBody}
    {arguments arguments' : List InputValue}
    (hmakes : MakesBody c base arguments body r arguments' r') (h : r.WellNamed) :
    Built c (UsesOf .input (arguments'.map (·.type))) r r' ∧
      ∃ made, arguments' = arguments ++ made ∧
        List.Forall₂ (ArgumentFor c r') (body.map fun b => Option.some b.schema).toList made := by
  cases hmakes with
  | none => exact ⟨.refl h, [], (List.append_nil _).symm, .nil⟩
  | some _ htype _ =>
    obtain ⟨hbuilt, hfor⟩ := htype.built h
    refine ⟨hbuilt.mono fun p x => ?_, _, rfl, .cons ⟨_, _, rfl, hfor⟩ .nil⟩
    rw [← List.append_nil (arguments ++ _)]
    exact usesOf_added (leaf_excludeNullIf ..)

/-- Every endpoint builds what its field refers to. -/
theorem MakesField.built {e : Endpoint} {f : Field} (hmakes : MakesField c e r f r')
    (h : r.WellNamed) : Built c (FieldUses f) r r' ∧ FieldFor c r' e f := by
  obtain ⟨htype, harguments, hbody⟩ := hmakes
  obtain ⟨hbuilt₁, hresponse⟩ := htype.built h
  obtain ⟨hbuilt₂, made₁, rfl, hparameters⟩ := harguments.built hbuilt₁.wellNamed
  obtain ⟨hbuilt₃, made₂, rfl, hbodies⟩ := hbody.built hbuilt₂.wellNamed
  have hkeeps := hbuilt₂.keeps.trans hbuilt₃.keeps
  have hmono := hparameters.imp fun _ _ (harg : ArgumentFor ..) => harg.mono hbuilt₃.keeps
  refine ⟨(hbuilt₁.mono fun p x => Or.inl).trans ((hbuilt₂.mono fun p x huses => ?_).trans
    (hbuilt₃.mono fun p x => Or.inr)), rfl, hresponse.mono hkeeps, List.rel_append hmono hbodies⟩
  obtain ⟨rfl, type, hmem, rfl⟩ := huses
  refine Or.inr ⟨rfl, type, ?_, rfl⟩
  rw [List.map_append]
  exact List.mem_append_left _ hmem

/-! ## Everything that is there -/

theorem Built.allDone {uses : Position → String → Prop} {components : List String}
    (h : Built c uses (.start components) r) : AllDone c r := by
  intro position name type htype
  rcases h.done position name type htype with hstart | hdone
  · exact nomatch hstart
  · exact hdone

/-- Whatever is registered was made for what is used. -/
theorem Built.made_of_mem {uses : Position → String → Prop} {components : List String}
    (h : Built c uses (.start components) r) {position : Position} {e : String × Option Composite}
    (he : e ∈ r.types position) :
    ∃ t, e.2 = some t ∧ Made ⟨c, position⟩ r t ∧ Used uses r position e.1 := by
  have hregistered : r.registered? position e.1 = some e.2 :=
    Dictionary.get?_of_mem (h.wellNamed.nodup position) he
  rcases h.made position e.1 e.2 hregistered with hstart | hmade
  · rw [Registry.registered?, Registry.types_start] at hstart
    exact absurd hstart.symm (Option.some_ne_none e.2)
  · exact hmade

theorem Built.json_of_usesJson {uses : Position → String → Prop} {components : List String}
    (h : Built c uses (.start components) r) (huses : r.usesJson = true) :
    ∃ position, Used uses r position jsonName :=
  (h.json huses).resolve_left Bool.false_ne_true

theorem MakesFields.fieldsFor_subset {endpoints : List Endpoint} {roots roots' : Roots}
    (hmakes : MakesFields c roots endpoints r roots' r') (e : Endpoint) :
    roots.fieldsFor e ⊆ roots'.fieldsFor e := by
  induction hmakes with
  | nil => exact List.Subset.refl _
  | @cons roots _ e' _ _ _ _ f _ _ _ ih =>
    refine List.Subset.trans ?_ ih
    unfold Roots.fieldsFor
    rw [query_push, mutation_push]
    split
    · exact List.subset_append_left ..
    · exact List.subset_append_left ..

theorem mem_fieldsFor_push (roots : Roots) (e : Endpoint) (f : Field) :
    f ∈ (roots.push e f).fieldsFor e := by
  unfold Roots.fieldsFor
  rw [query_push, mutation_push]
  cases e.isQuery <;> simp

/-- The roots have a field for every endpoint. -/
theorem MakesFields.built {endpoints : List Endpoint} {roots roots' : Roots}
    (hmakes : MakesFields c roots endpoints r roots' r') (h : r.WellNamed) :
    Built c (fun _ _ => True) r r' ∧
      ∀ e ∈ endpoints, ∃ f ∈ roots'.fieldsFor e, FieldFor c r' e f := by
  induction hmakes with
  | nil => exact ⟨.refl h, fun e he => absurd he List.not_mem_nil⟩
  | @cons roots _ e _ _ _ _ f hfield _ hrest ih =>
    obtain ⟨hbuilt, hfor⟩ := hfield.built h
    obtain ⟨hothers, hall⟩ := ih hbuilt.wellNamed
    refine ⟨(hbuilt.mono fun _ _ _ => trivial).trans hothers,
      List.forall_mem_cons.mpr ⟨⟨f, ?_, hfor.mono hothers.keeps⟩, hall⟩⟩
    exact hrest.fieldsFor_subset e (mem_fieldsFor_push roots e f)

end ApiGraph.Generation
