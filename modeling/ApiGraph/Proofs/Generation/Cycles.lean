import ApiGraph.Proofs.Generation.Coverage
import Mathlib.Logic.Relation

/-!
# Schemas that contain themselves

A component that is an object has its type as soon as it is begun, and so it may contain itself.
Arrays and objects that are no components are worked on anew wherever they stand.  `Leads` relates
such a schema to the schemas that are worked on for it, as far as that can be told: an object comes
to a property if the properties before it give rise to no fault.  A schema that leads to itself has
no type, whatever the bound on the nesting is (`unbounded_of_cycle`).

The properties before have to be looked at again on every round, when more components have types.
This changes nothing: what was worked on once is only given up on for the bound
(`harmless_of_covered`).
-/

namespace ApiGraph.Generation

open ApiGraph.GraphQL hiding Schema
open ApiGraph.OpenApi (RefOr Schema SchemaKind)

variable {s : Setting} {known : String → Prop}

/-- The type of an object that is no component. -/
theorem typeOf_of_inlined {a : RefOr Schema} {resolved : Schema}
    {properties : List (String × RefOr Schema)} {required : List String}
    (hresolve : s.resolve a = .ok (none, resolved))
    (hkind : resolved.kind = .object properties required) (hsome : properties.isEmpty = false)
    (n : Nat) (hint : String) (r : Registry) :
    typeOf s (n + 1) a hint r =
      (membersOf (typeOf s n) s (s.ownerName hint (beginObject s none hint r).1) required []
        properties (beginObject s none hint r).2 >>= fun done =>
          .ok (endObject s none ⟨(beginObject s none hint r).1, done.1, resolved.data.description⟩
            done.2)) := by
  rw [typeOf_of_object hresolve hkind hsome]
  rfl

/-! ## What is worked on again -/

/-- Nothing is wrong but the bound, and the known components have types. -/
def Harmless (s : Setting) (known : String → Prop) {α : Type}
    (outcome : Except Fault (α × Registry)) : Prop :=
  outcome = .error .unbounded ∨
    ∃ a r, outcome = .ok (a, r) ∧ ∀ name, known name → r.Has s.position name

theorem Harmless.ok {α : Type} {found : α × Registry}
    (h : ∀ name, known name → found.2.Has s.position name) : Harmless s known (.ok found) :=
  Or.inr ⟨found.1, found.2, rfl, h⟩

theorem Harmless.bind {α β : Type} {x : Except Fault (α × Registry)}
    {f : α × Registry → Except Fault (β × Registry)} (hx : Harmless s known x)
    (hf : ∀ a r, (∀ name, known name → r.Has s.position name) → Harmless s known (f (a, r))) :
    Harmless s known (x >>= f) := by
  rcases hx with rfl | ⟨a, r, rfl, hr⟩
  · exact Or.inl rfl
  · exact hf a r hr

/-- The properties of an object that was worked on: all can be followed, and the members are free of
collisions, provided that the components in `known` are. -/
structure Worked (s : Setting) (known : String → Prop) (properties : List (String × RefOr Schema)) :
    Prop where
  resolves : ∀ p ∈ properties, ∃ found, s.resolve p.2 = .ok found
  nodup : (s.memberNames properties).Nodup
  covered : ∀ p ∈ s.visible properties, Covered s known p.2

theorem Worked.mono {known' : String → Prop} (h : ∀ name, known name → known' name)
    {properties : List (String × RefOr Schema)} (hworked : Worked s known properties) :
    Worked s known' properties :=
  ⟨hworked.resolves, hworked.nodup, fun p hp => (hworked.covered p hp).mono h⟩

/-- A schema that is covered can be followed. -/
theorem Covered.resolves {a : RefOr Schema} (h : Covered s known a) :
    ∃ found, s.resolve a = .ok found := by
  cases h with
  | leaf hresolve _ => exact ⟨_, hresolve⟩
  | array hresolve _ _ => exact ⟨_, hresolve⟩
  | component hresolve _ _ => exact ⟨_, hresolve⟩
  | inlined hresolve _ _ _ _ => exact ⟨_, hresolve⟩

theorem harmless_of_worked
    {make : RefOr Schema → String → Registry → Except Fault (TypeRef × Registry)} {owner : String}
    {required : List String} {properties : List (String × RefOr Schema)}
    (hmake : ∀ p ∈ s.visible properties, ∀ hint r, (∀ name, known name → r.Has s.position name) →
      Harmless s known (make p.2 hint r))
    (hresolves : ∀ p ∈ properties, ∃ found, s.resolve p.2 = .ok found)
    {members : List InputValue} {r : Registry}
    (hnodup : (members.map (·.name) ++ s.memberNames properties).Nodup)
    (hr : ∀ name, known name → r.Has s.position name) :
    Harmless s known (membersOf make s owner required members properties r) := by
  induction properties generalizing members r with
  | nil => exact .ok hr
  | cons p rest ih =>
    obtain ⟨property, schema⟩ := p
    obtain ⟨⟨⟨component, resolved⟩, hresolve⟩, hrest⟩ := List.forall_mem_cons.mp hresolves
    have hshows := shows_of_resolve hresolve
    rw [Setting.memberNames, visible_cons, hshows] at hnodup
    rw [visible_cons, hshows] at hmake
    cases hhides : s.hides resolved.data with
    | true =>
      rw [hhides] at hnodup hmake
      rw [membersOf_of_hides hresolve hhides]
      exact ih hmake hrest hnodup hr
    | false =>
      rw [hhides, Bool.not_false, if_pos rfl] at hnodup hmake
      obtain ⟨hfirst, hmakeRest⟩ := List.forall_mem_cons.mp hmake
      rw [membersOf_of_shows hresolve hhides]
      refine (hfirst _ r hr).bind fun type r₁ hr₁ => ?_
      have hname : fieldName property ∉ members.map (·.name) := fun hmem =>
        List.disjoint_of_nodup_append hnodup hmem (List.mem_cons_self ..)
      have hadd : addMember members (memberFor property required resolved type) =
          .ok (members ++ [memberFor property required resolved type]) :=
        addMember_eq_ok.mpr ⟨hname, rfl⟩
      rw [hadd]
      refine ih hmakeRest hrest ?_ hr₁
      rw [List.map_append, List.append_assoc]
      exact hnodup

/-- The type of a schema that is covered, when the known components have types. -/
theorem harmless_of_covered {n : Nat} {a : RefOr Schema} {hint : String} {r : Registry}
    (hcovered : Covered s known a) (hr : ∀ name, known name → r.Has s.position name) :
    Harmless s known (typeOf s n a hint r) := by
  induction n generalizing a hint r with
  | zero => exact Or.inl rfl
  | succ n ih =>
    cases hcovered with
    | leaf hresolve hkind =>
      rcases hkind with hkind | hkind
      · obtain ⟨_, hkind⟩ := Option.isSome_iff_exists.mp hkind
        rw [typeOf_of_scalar hresolve hkind]
        exact .ok hr
      · rw [typeOf_of_shapeless hresolve hkind]
        exact .ok hr
    | array hresolve hkind hitems =>
      rw [typeOf_of_array hresolve hkind]
      refine (ih hitems hr).bind fun type r₁ hr₁ => ?_
      obtain ⟨_, hfound⟩ := hitems.resolves
      rw [hfound]
      exact .ok hr₁
    | @component _ name resolved properties required hresolve hkind hknown =>
      cases hsome : properties.isEmpty with
      | true =>
        rw [typeOf_of_shapeless hresolve (by rw [hkind]; exact hsome)]
        exact .ok hr
      | false =>
        obtain ⟨type, htype⟩ := Option.isSome_iff_exists.mp (hr name hknown)
        rw [typeOf_of_object hresolve hkind hsome, objectType, Option.bind_some, htype]
        exact .ok hr
    | @inlined _ resolved properties required hresolve hkind hresolves hnodup hmembers =>
      cases hsome : properties.isEmpty with
      | true =>
        rw [typeOf_of_shapeless hresolve (by rw [hkind]; exact hsome)]
        exact .ok hr
      | false =>
        have hbegun : ∀ name, known name → (beginObject s none hint r).2.Has s.position name :=
          fun name hname => has_beginObject.mpr (Or.inr (hr name hname))
        have hnames : (([] : List InputValue).map (·.name) ++ s.memberNames properties).Nodup :=
          hnodup
        rw [typeOf_of_inlined hresolve hkind hsome]
        refine (harmless_of_worked (fun p hp hint r hr => ih (hmembers p hp) hr) hresolves hnames
          hbegun).bind fun members r₁ hr₁ => .ok fun name hname => ?_
        refine (has_endObject fun h => ?_).mpr (hr₁ name hname)
        exact nomatch h

theorem Worked.harmless {properties : List (String × RefOr Schema)}
    (hworked : Worked s known properties) (n : Nat) {owner : String} {required : List String}
    {r : Registry} (hr : ∀ name, known name → r.Has s.position name) :
    Harmless s known (membersOf (typeOf s n) s owner required [] properties r) :=
  harmless_of_worked (fun p hp _ _ hr => harmless_of_covered (hworked.covered p hp) hr)
    hworked.resolves hworked.nodup hr

/-! ## Cycles -/

/-- The schemas that are worked on for an array or an object that is no component. -/
inductive Leads (s : Setting) (known : String → Prop) : RefOr Schema → RefOr Schema → Prop
  | item {a items : RefOr Schema} {component : Option String} {resolved : Schema}
      (hresolve : s.resolve a = .ok (component, resolved))
      (hkind : resolved.kind = .array (some items)) : Leads s known a items
  | member {a : RefOr Schema} {resolved : Schema} {before after : List (String × RefOr Schema)}
      {p : String × RefOr Schema} {required : List String}
      (hresolve : s.resolve a = .ok (none, resolved))
      (hkind : resolved.kind = .object (before ++ p :: after) required)
      (hworked : Worked s known before) (hshows : s.shows p.2 = true) : Leads s known a p.2

theorem Leads.mono {known' : String → Prop} (h : ∀ name, known name → known' name)
    {a b : RefOr Schema} (hleads : Leads s known a b) : Leads s known' a b := by
  cases hleads with
  | item hresolve hkind => exact .item hresolve hkind
  | member hresolve hkind hworked hshows => exact .member hresolve hkind (hworked.mono h) hshows

theorem membersOf_eq_unbounded
    {make : RefOr Schema → String → Registry → Except Fault (TypeRef × Registry)}
    {owner : String} {required : List String} {members : List InputValue}
    {p : String × RefOr Schema} {rest : List (String × RefOr Schema)} {r : Registry}
    (hshows : s.shows p.2 = true)
    (h : make p.2 (propertyHint owner p.1) r = .error .unbounded) :
    membersOf make s owner required members (p :: rest) r = .error .unbounded := by
  obtain ⟨property, schema⟩ := p
  obtain ⟨_, _, hresolve, hhides⟩ := exists_resolve_of_shows hshows
  rw [membersOf_of_shows hresolve hhides, h]
  rfl

theorem unbounded_of_leads {a b : RefOr Schema} (hleads : Leads s known a b) {n : Nat}
    (hb : ∀ hint r, (∀ name, known name → r.Has s.position name) →
      typeOf s n b hint r = .error .unbounded)
    {hint : String} {r : Registry} (hr : ∀ name, known name → r.Has s.position name) :
    typeOf s (n + 1) a hint r = .error .unbounded := by
  cases hleads with
  | item hresolve hkind =>
    rw [typeOf_of_array hresolve hkind, hb _ _ hr]
    rfl
  | @member _ before after p _ hresolve hkind hworked hshows =>
    have hsome : (before ++ p :: after).isEmpty = false := by
      rw [List.isEmpty_eq_false_iff]
      exact List.append_ne_nil_of_right_ne_nil _ (List.cons_ne_nil _ _)
    have hbegun : ∀ name, known name → (beginObject s none hint r).2.Has s.position name :=
      fun name hname => has_beginObject.mpr (Or.inr (hr name hname))
    rw [typeOf_of_inlined hresolve hkind hsome, membersOf_append, bind_assoc]
    rcases hworked.harmless n hbegun with hbefore | ⟨members, r₁, hbefore, hr₁⟩
    · rw [hbefore]
      rfl
    · rw [hbefore]
      refine bind_eq_error.mpr (Or.inr ⟨_, rfl, bind_eq_error.mpr (Or.inl ?_)⟩)
      exact membersOf_eq_unbounded hshows (hb _ _ hr₁)

/-- A schema that leads to itself has no type. -/
theorem unbounded_of_cycle {a : RefOr Schema} (hcycle : Relation.TransGen (Leads s known) a a)
    (n : Nat) {hint : String} {r : Registry} (hr : ∀ name, known name → r.Has s.position name) :
    typeOf s n a hint r = .error .unbounded := by
  induction n generalizing a hint r with
  | zero => rfl
  | succ n ih =>
    obtain ⟨b, hleads, hback⟩ := Relation.TransGen.head'_iff.mp hcycle
    exact unbounded_of_leads hleads (fun hint r hr => ih (.tail' hback hleads) hr) hr

end ApiGraph.Generation
