import ApiGraph.Proofs.Dictionary
import ApiGraph.Proofs.Generation.Names

/-!
# What the registry holds

Each operation of the registry in terms of what can be observed: the names that were handed out, the
type assigned to a component, and the types of a position.  Beginning and ending a type are put
together from these.
-/

namespace ApiGraph

namespace Generation

open ApiGraph.GraphQL

namespace Registry

variable (r : Registry) (position : Position) (types : Dictionary (Option Composite))

/-! ## Types -/

@[simp] theorem names_setTypes : (r.setTypes position types).names = r.names := by
  cases position <;> rfl

@[simp] theorem assigned_setTypes : (r.setTypes position types).assigned = r.assigned := by
  cases position <;> rfl

theorem types_setTypes (p : Position) :
    (r.setTypes position types).types p = if position = p then types else r.types p := by
  cases position <;> cases p <;> rfl

theorem types_start (components : List String) (position : Position) :
    (start components).types position = [] := by
  cases position <;> rfl

@[simp] theorem types_assign (c : String) (type : TypeRef) (p : Position) :
    (r.assign position c type).types p = r.types p := by
  cases p <;> rfl

@[simp] theorem usesJson_setTypes : (r.setTypes position types).usesJson = r.usesJson := by
  cases position <;> rfl

@[simp] theorem types_useJson (p : Position) : r.useJson.types p = r.types p := by
  cases p <;> rfl

variable {r position types}

/-- Types that were there before, or are set. -/
theorem mem_types_setTypes {p : Position} {e : String × Option Composite}
    (h : e ∈ (r.setTypes position types).types p) : e ∈ types ∨ e ∈ r.types p := by
  rw [types_setTypes] at h
  split at h
  · exact Or.inl h
  · exact Or.inr h

/-- What is registered under the name in the position: nothing, a type that has been begun, or one
that is finished. -/
def registered? (r : Registry) (position : Position) (name : String) : Option (Option Composite) :=
  (r.types position).get? name

theorem mem_keys {r : Registry} {position : Position} {name : String} {e : Option Composite}
    (h : r.registered? position name = some e) : name ∈ (r.types position).keys :=
  List.mem_map.mpr ⟨_, Dictionary.mem_of_get? h, rfl⟩

theorem registered?_setTypes (r : Registry) (position p : Position)
    (types : Dictionary (Option Composite)) (name : String) :
    (r.setTypes position types).registered? p name =
      if position = p then types.get? name else r.registered? p name := by
  rw [registered?, types_setTypes]
  split
  · rfl
  · rfl

@[simp] theorem registered?_useJson (r : Registry) (p : Position) (name : String) :
    r.useJson.registered? p name = r.registered? p name := by
  rw [registered?, types_useJson, registered?]

/-- The types of a position are changed under one name. -/
theorem registered?_setTypes_at (p : Position) {name : String} {entry : Option (Option Composite)}
    (h : ∀ n, types.get? n = if name = n then entry else (r.types position).get? n) (n : String) :
    (r.setTypes position types).registered? p n =
      if p = position ∧ n = name then entry else r.registered? p n := by
  rw [registered?_setTypes, h]
  by_cases hp : position = p
  · subst hp
    simp [registered?, eq_comm]
  · simp [hp, Ne.symm hp]

theorem registered?_beginType (r : Registry) (position p : Position) (name n : String) :
    (r.beginType position name).registered? p n =
      if p = position ∧ n = name then some none else r.registered? p n :=
  registered?_setTypes_at p (Dictionary.get?_put _ _ _) n

theorem registered?_finish (r : Registry) (position p : Position) (t : Composite) (n : String) :
    (r.finish position t).registered? p n =
      if p = position ∧ n = t.name then some (some t) else r.registered? p n :=
  registered?_setTypes_at p (Dictionary.get?_put _ _ _) n

theorem registered?_discard (r : Registry) (position p : Position) (name n : String) :
    (r.discard position name).registered? p n =
      if p = position ∧ n = name then none else r.registered? p n :=
  registered?_setTypes_at p (Dictionary.get?_erase _ _) n

/-! ## Assigned types -/

theorem assigned?_assign (r : Registry) (position p : Position) (c c' : String) (type : TypeRef) :
    (r.assign position c type).assigned? p c' =
      if p = position ∧ c' = c then some type else r.assigned? p c' := by
  unfold assign assigned?
  rw [List.lookup_cons]
  by_cases h : p = position ∧ c' = c
  · obtain ⟨rfl, rfl⟩ := h
    simp
  · have hne : ((p, c') == (position, c)) = false := by
      rw [beq_eq_false_iff_ne, ne_eq, Prod.mk.injEq]
      exact h
    rw [if_neg h, hne]

@[simp] theorem assigned?_setTypes (r : Registry) (position p : Position)
    (types : Dictionary (Option Composite)) (c : String) :
    (r.setTypes position types).assigned? p c = r.assigned? p c := by
  rw [assigned?, assigned_setTypes, assigned?]

theorem mem_assigned_of_assigned? {p : Position} {c : String} {type : TypeRef}
    (h : r.assigned? p c = some type) : ((p, c), type) ∈ r.assigned := by
  unfold assigned? at h
  obtain ⟨l₁, l₂, heq, -⟩ := List.lookup_eq_some_iff.mp h
  rw [heq]
  exact List.mem_append_right _ (List.mem_cons_self ..)

/-- Has the component a type in the position? -/
def Has (r : Registry) (position : Position) (component : String) : Prop :=
  (r.assigned? position component).isSome = true

theorem has_setTypes {p : Position} {c : String} :
    (r.setTypes position types).Has p c ↔ r.Has p c := by
  unfold Has assigned?
  rw [assigned_setTypes]

end Registry

/-! ## Beginning and ending a type -/

section Objects

variable (s : Setting) (component : Option String) (base : String) (r : Registry)

/-- The name that a type is begun under. -/
def claimedName : String :=
  r.names.choose (if component.isSome then .component else .inlined) (s.position.preferred base)

theorem not_mem_taken_claimedName : claimedName s component base r ∉ r.names.taken :=
  NamePool.not_mem_taken_of_isFree (NamePool.isFree_choose ..)

theorem isName_claimedName {base : String} (h : isName base = true) :
    isName (claimedName s component base r) = true :=
  NamePool.isName_choose _ _ (isName_preferred _ h)

variable {s : Setting} {component : Option String} {base : String} {r : Registry}

/-- The registry in which a component has the type; without one it is the registry itself. -/
def Registry.assignTo (r : Registry) (position : Position) (component : Option String)
    (type : TypeRef) : Registry :=
  match component with
  | some c => r.assign position c type
  | none => r

theorem Registry.assigned?_assignTo (r : Registry) (position p : Position)
    (component : Option String) (type : TypeRef) (c : String) :
    (r.assignTo position component type).assigned? p c =
      if p = position ∧ component = some c then some type else r.assigned? p c := by
  cases component with
  | none => exact (if_neg (fun h => nomatch h.2)).symm
  | some c' =>
    rw [assignTo, assigned?_assign]
    simp only [Option.some.injEq, eq_comm (a := c')]

@[simp] theorem Registry.types_assignTo (r : Registry) (position : Position)
    (component : Option String) (type : TypeRef) (p : Position) :
    (r.assignTo position component type).types p = r.types p := by
  cases component with
  | none => rfl
  | some c => exact types_assign ..

@[simp] theorem Registry.registered?_assignTo (r : Registry) (position : Position)
    (component : Option String) (type : TypeRef) (p : Position) (name : String) :
    (r.assignTo position component type).registered? p name = r.registered? p name := by
  rw [registered?, types_assignTo, registered?]

@[simp] theorem Registry.names_assignTo (r : Registry) (position : Position)
    (component : Option String) (type : TypeRef) :
    (r.assignTo position component type).names = r.names := by
  cases component <;> rfl

@[simp] theorem Registry.usesJson_assignTo (r : Registry) (position : Position)
    (component : Option String) (type : TypeRef) :
    (r.assignTo position component type).usesJson = r.usesJson := by
  cases component <;> rfl

/-- The registry in which the name of the type is taken. -/
def claimedRegistry (s : Setting) (component : Option String) (base : String) (r : Registry) :
    Registry :=
  { r with names := { r.names with taken := claimedName s component base r :: r.names.taken } }

theorem types_claimedRegistry (s : Setting) (component : Option String) (base : String)
    (r : Registry) (p : Position) : (claimedRegistry s component base r).types p = r.types p := by
  cases p <;> rfl

theorem beginObject_eq (s : Setting) (component : Option String) (base : String) (r : Registry) :
    beginObject s component base r =
      (claimedName s component base r,
        (((claimedRegistry s component base r).assignTo s.position component
          (.named (claimedName s component base r))).beginType s.position
            (claimedName s component base r))) := by
  cases component <;> rfl

theorem taken_beginObject (s : Setting) (component : Option String) (base : String)
    (r : Registry) : (beginObject s component base r).2.names.taken =
      claimedName s component base r :: r.names.taken := by
  rw [beginObject_eq, Registry.beginType, Registry.names_setTypes, Registry.names_assignTo]
  rfl

/-- A type is registered from its beginning on. -/
theorem registered?_beginObject (p : Position) (n : String) :
    (beginObject s component base r).2.registered? p n =
      if p = s.position ∧ n = claimedName s component base r then some none
      else r.registered? p n := by
  rw [beginObject_eq, Registry.registered?_beginType, Registry.registered?_assignTo,
    Registry.registered?, types_claimedRegistry]
  rfl

/-- A component has its type from the beginning on. -/
theorem assigned?_beginObject (p : Position) (c : String) :
    (beginObject s component base r).2.assigned? p c =
      if p = s.position ∧ component = some c then some (.named (claimedName s component base r))
      else r.assigned? p c := by
  rw [beginObject_eq, Registry.beginType, Registry.assigned?_setTypes, Registry.assigned?_assignTo]
  rfl

theorem usesJson_beginObject : (beginObject s component base r).2.usesJson = r.usesJson := by
  rw [beginObject_eq, Registry.beginType, Registry.usesJson_setTypes, Registry.usesJson_assignTo]
  rfl

theorem has_beginObject {p : Position} {c : String} :
    (beginObject s component base r).2.Has p c ↔
      (p = s.position ∧ component = some c) ∨ r.Has p c := by
  unfold Registry.Has
  rw [assigned?_beginObject]
  split
  · rename_i h
    exact ⟨fun _ => Or.inl h, fun _ => rfl⟩
  · rename_i h
    exact ⟨Or.inr, fun hor => hor.resolve_left h⟩

theorem endObject_of_nil {t : Composite} (h : t.members = []) :
    endObject s component t r =
      (jsonType,
        ((r.discard s.position t.name).useJson).assignTo s.position component jsonType) := by
  rw [endObject, h]
  cases component <;> rfl

theorem endObject_of_ne_nil {t : Composite} (h : t.members ≠ []) :
    endObject s component t r = (.named t.name, r.finish s.position t) := by
  rw [endObject, if_neg (fun hempty => h (List.isEmpty_iff.mp hempty))]

theorem names_endObject (t : Composite) :
    (endObject s component t r).2.names = r.names := by
  by_cases hempty : t.members = []
  · rw [endObject_of_nil hempty, Registry.names_assignTo]
    exact Registry.names_setTypes ..
  · rw [endObject_of_ne_nil hempty]
    exact Registry.names_setTypes ..

/-- Ending a type concerns its own name alone. -/
theorem registered?_endObject {t : Composite} {p : Position} {n : String}
    (hne : ¬ (p = s.position ∧ n = t.name)) :
    (endObject s component t r).2.registered? p n = r.registered? p n := by
  by_cases hempty : t.members = []
  · rw [endObject_of_nil hempty, Registry.registered?_assignTo, Registry.registered?_useJson,
      Registry.registered?_discard, if_neg hne]
  · rw [endObject_of_ne_nil hempty, Registry.registered?_finish, if_neg hne]

/-- Ending a type concerns its own component alone. -/
theorem assigned?_endObject {t : Composite} {p : Position} {c : String}
    (hne : ¬ (p = s.position ∧ component = some c)) :
    (endObject s component t r).2.assigned? p c = r.assigned? p c := by
  by_cases hempty : t.members = []
  · rw [endObject_of_nil hempty, Registry.assigned?_assignTo, if_neg hne]
    exact Registry.assigned?_setTypes ..
  · rw [endObject_of_ne_nil hempty]
    exact Registry.assigned?_setTypes ..

theorem usesJson_endObject {t : Composite} (h : r.usesJson = true) :
    (endObject s component t r).2.usesJson = true := by
  by_cases hempty : t.members = []
  · rw [endObject_of_nil hempty, Registry.usesJson_assignTo]
    rfl
  · rw [endObject_of_ne_nil hempty, Registry.finish, Registry.usesJson_setTypes, h]

theorem has_endObject {p : Position} {c : String} {t : Composite}
    (h : component = some c → r.Has s.position c) :
    (endObject s component t r).2.Has p c ↔ r.Has p c := by
  by_cases hown : p = s.position ∧ component = some c
  · obtain ⟨rfl, hc⟩ := hown
    refine ⟨fun _ => h hc, fun hhas => ?_⟩
    by_cases hempty : t.members = []
    · rw [endObject_of_nil hempty, Registry.Has, Registry.assigned?_assignTo, if_pos ⟨rfl, hc⟩]
      rfl
    · rw [endObject_of_ne_nil hempty]
      exact Registry.has_setTypes.mpr hhas
  · unfold Registry.Has
    rw [assigned?_endObject hown]

end Objects

end Generation

end ApiGraph
