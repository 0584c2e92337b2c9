import ApiGraph.Proofs.Generation.OwnNames
import ApiGraph.Proofs.Generation.Repeats

/-!
# Names that no component is given

An object that is no component has a name which was free when its type was begun.  Components are
given free names as well, so from then on none of them is given that name, and none had it before.

* `Makes.givesFresh`: a name that is taken is given to no other component.
* `Unclaimed.append`: what is listed goes on to have names that no component has.
* `unclaimed_translationsFor`: so it is with everything that is translated for endpoints.
-/

namespace ApiGraph.Generation

open ApiGraph.GraphQL hiding Schema
open ApiGraph.OpenApi (RefOr Schema SchemaKind Components Endpoint)

/-- In between, no component is given a name that was taken before. -/
def Registry.GivesFresh (r r' : Registry) : Prop :=
  ∀ position component name, r'.Gave position component name → name ∈ r.names.taken →
    r.Gave position component name

variable {s : Setting}

mutual

theorem Makes.givesFresh {a : RefOr Schema} {hint : String} {r r' : Registry} {type : TypeRef}
    (hmakes : Makes s a hint r type r') (hfixed : ∀ name ∈ fixedNames, name ∈ r.names.taken) :
    r.GivesFresh r' :=
  match hmakes with
  | .scalar _ _ => fun _ _ _ h _ => h
  | .json _ _ => fun _ _ _ h _ => h
  | .array _ _ hitem _ => hitem.givesFresh hfixed
  | .known _ _ _ => fun _ _ _ h _ => h
  | @Makes.new _ _ hint _ _ component _ _ _ _ _ _ _ hmembers => by
    have hbegun : ∀ {name}, name ∈ r.names.taken →
        name ∈ (beginObject s component (baseName component hint) r).2.names.taken := by
      intro name hname
      rw [taken_beginObject]
      exact List.mem_cons_of_mem _ hname
    intro p k name hname htaken
    have hgave := hmembers.givesFresh (fun n hn => hbegun (hfixed n hn)) p k name
      (gave_endObject.mp hname) (hbegun htaken)
    rcases (gave_beginObject hfixed).mp hgave with ⟨-, -, rfl⟩ | hold
    · exact absurd htaken (not_mem_taken_claimedName s component (baseName component hint) r)
    · exact hold

theorem MakesMembers.givesFresh {owner : String} {required : List String}
    {members members' : List InputValue} {properties : List (String × RefOr Schema)}
    {r r' : Registry} (hmakes : MakesMembers s owner required members properties r members' r')
    (hfixed : ∀ name ∈ fixedNames, name ∈ r.names.taken) : r.GivesFresh r' :=
  match hmakes with
  | .nil => fun _ _ _ h _ => h
  | .hidden _ _ hrest => hrest.givesFresh hfixed
  | .shown _ _ hmember _ hrest => fun p k name hname htaken =>
    hmember.givesFresh hfixed p k name
      (hrest.givesFresh (fun n hn => hmember.extends.taken n (hfixed n hn)) p k name hname
        (hmember.extends.taken name htaken)) htaken

end

/-! ## Lists of translations -/

/-- The types that end inline have names, and no component was given one of these. -/
structure Unclaimed (c : Components) (log : List Translation) (r r' : Registry) : Prop where
  credited : r'.Credited c
  taken : ∀ name ∈ r.names.taken, name ∈ r'.names.taken
  given : r.GivesFresh r'
  listed : ∀ x ∈ log, x.EndsInline c →
    x.type.leaf ∈ r'.names.taken ∧ ∀ p k, ¬ r'.Gave p k x.type.leaf

namespace Unclaimed

variable {c : Components} {log log' : List Translation} {r r₁ r₂ r' : Registry} {x : Translation}

theorem refl (h : r.Credited c) : Unclaimed c [] r r :=
  ⟨h, fun _ h => h, fun _ _ _ h _ => h, fun _ hx => absurd hx List.not_mem_nil⟩

theorem append (h : Unclaimed c log r r₁) (h' : Unclaimed c log' r₁ r') :
    Unclaimed c (log ++ log') r r' := by
  refine ⟨h'.credited, fun name hname => h'.taken name (h.taken name hname),
    fun p k name hname htaken => ?_, List.forall_mem_append.mpr ⟨fun x hx hends => ?_, h'.listed⟩⟩
  · exact h.given p k name (h'.given p k name hname (h.taken name htaken)) htaken
  · obtain ⟨htaken, hnot⟩ := h.listed x hx hends
    exact ⟨h'.taken _ htaken, fun p k hname => hnot p k (h'.given p k _ hname htaken)⟩

theorem snoc (h : Unclaimed c log r r') (hx : x.EndsInline c →
    x.type.leaf ∈ r'.names.taken ∧ ∀ p k, ¬ r'.Gave p k x.type.leaf) :
    Unclaimed c (log ++ [x]) r r' :=
  ⟨h.credited, h.taken, h.given,
    List.forall_mem_append.mpr ⟨h.listed, List.forall_mem_singleton.mpr hx⟩⟩

/-- What is made for a schema goes on after its parts have been. -/
theorem around {a : RefOr Schema} {hint : String} {type : TypeRef}
    (h : Unclaimed s.components log r₁ r₂) (hmakes : Makes s a hint r type r')
    (hcredited : r.Credited s.components)
    (htaken : ∀ name ∈ r₂.names.taken, name ∈ r'.names.taken)
    (hgave : ∀ p k name, r'.Gave p k name → r₂.Gave p k name) :
    Unclaimed s.components log r r' := by
  refine ⟨hmakes.credited hcredited, hmakes.extends.taken, hmakes.givesFresh hcredited.fixed,
    fun x hx hends => ?_⟩
  obtain ⟨hmem, hnot⟩ := h.listed x hx hends
  exact ⟨htaken _ hmem, fun p k hname => hnot p k (hgave p k _ hname)⟩

end Unclaimed

theorem unclaimed_inTurn {c : Components} {tops : List Translation} {r r' : Registry}
    {make : Task → Registry → Except Fault (TypeRef × Registry)}
    {translated : Task → Registry → List Translation} {l : List Task}
    (hone : ∀ t ∈ l, ∀ {r type r'}, make t r = .ok (type, r') → r.Credited c →
      Unclaimed c (translated t r) r r')
    (h : madeInTurn make l r = .ok (tops, r')) (hcredited : r.Credited c) :
    Unclaimed c (translatedInTurn make translated l r) r r' :=
  inTurn_of_each (R := fun _ => Unclaimed c) .refl .append (fun hunclaimed => hunclaimed.credited)
    hone h hcredited

/-! ## The list for one schema -/

section Schemas

variable {a : RefOr Schema} {component : Option String} {resolved : Schema} {bound : Nat}
  {hint : String} {r r' : Registry} {type : TypeRef} {properties : List (String × RefOr Schema)}
  {required : List String}

theorem mem_translations (h : typeOf s bound a hint r = .ok (type, r')) :
    ⟨s.position, a, type⟩ ∈ translations s bound a hint r := by
  cases bound with
  | zero => cases h
  | succ bound =>
    obtain ⟨⟨component, resolved⟩, hresolve, -⟩ := bind_eq_ok.mp h
    rw [translations_eq h hresolve]
    exact List.mem_append_right _ (List.mem_singleton_self _)

/-- A schema that does not end inline, and has no parts, is all that is listed. -/
theorem unclaimed_alone (hmakes : Makes s a hint r type r') (hcredited : r.Credited s.components)
    (hnot : ¬ EndsInline s a) :
    Unclaimed s.components ([] ++ [⟨s.position, a, type⟩]) r r' :=
  ((Unclaimed.refl (hmakes.credited hcredited)).around hmakes hcredited (fun _ h => h)
    fun _ _ _ h => h).snoc fun hends => absurd hends hnot

theorem EndsInline.component_eq_none (h : EndsInline s a)
    (hresolve : s.resolve a = .ok (component, resolved))
    (hkind : resolved.kind = .object properties required) : component = none := by
  rcases h.cases_of_resolve hresolve with ⟨hnone, -⟩ | ⟨_, harray, -⟩
  · exact hnone
  · cases hkind.symm.trans harray

/-- An object that is no component has the name that it claimed, or it is `JSON`. -/
theorem unclaimed_of_new {members : List InputValue} {r₂ : Registry} {log : List Translation}
    (hcredited : r.Credited s.components) (hresolve : s.resolve a = .ok (component, resolved))
    (hkind : resolved.kind = .object properties required)
    (hnew : component.bind (r.assigned? s.position) = none)
    (hmembers : MakesMembers s
      (s.ownerName (baseName component hint)
        (beginObject s component (baseName component hint) r).1)
      required [] properties (beginObject s component (baseName component hint) r).2 members r₂)
    (hlog : Unclaimed s.components log (beginObject s component (baseName component hint) r).2 r₂) :
    let ended := endObject s component (madeType s component hint resolved members r) r₂
    Unclaimed s.components (log ++ [⟨s.position, a, ended.1⟩]) r ended.2 := by
  intro ended
  have hmakes : Makes s a hint r ended.1 ended.2 := .new hresolve hkind hnew hmembers
  have hnames : ended.2.names = r₂.names := names_endObject _
  have hgave : ∀ p k name, ended.2.Gave p k name → r₂.Gave p k name := fun _ _ _ =>
    gave_endObject.mp
  have hclaimed : claimedName s component (baseName component hint) r ∈
      (beginObject s component (baseName component hint) r).2.names.taken := by
    rw [taken_beginObject]
    exact List.mem_cons_self ..
  refine (hlog.around hmakes hcredited (fun _ h => hnames ▸ h) hgave).snoc fun hends => ?_
  obtain rfl := EndsInline.component_eq_none hends hresolve hkind
  by_cases hempty : members = []
  · have hjson : jsonName ∈ fixedNames := by decide
    have hended : ended.1 = jsonType := congrArg Prod.fst (endObject_of_nil hempty)
    show ended.1.leaf ∈ ended.2.names.taken ∧ ∀ p k, ¬ ended.2.Gave p k ended.1.leaf
    rw [hended]
    exact ⟨(hmakes.credited hcredited).fixed _ hjson, fun p k h => h.2 hjson⟩
  · have hended : ended.1 = .named (claimedName s none (baseName none hint) r) :=
      congrArg Prod.fst (endObject_of_ne_nil hempty)
    show ended.1.leaf ∈ ended.2.names.taken ∧ ∀ p k, ¬ ended.2.Gave p k ended.1.leaf
    rw [hended, hnames]
    refine ⟨hlog.taken _ hclaimed, fun p k h => ?_⟩
    rcases (gave_beginObject hcredited.fixed).mp
      (hlog.given p k _ (hgave p k _ h) hclaimed) with ⟨hnone, -⟩ | hold
    · cases hnone
    · exact not_mem_taken_claimedName s none (baseName none hint) r (hcredited.taken p k _ hold)

theorem unclaimed_of_objectType
    (ih : ∀ {a hint r type r'}, typeOf s bound a hint r = .ok (type, r') →
      r.Credited s.components → Unclaimed s.components (translations s bound a hint r) r r')
    (h : typeOf s (bound + 1) a hint r = .ok (type, r')) (hcredited : r.Credited s.components)
    (hresolve : s.resolve a = .ok (component, resolved))
    (hkind : resolved.kind = .object properties required) (hsome : properties.isEmpty = false) :
    Unclaimed s.components (partTranslations (typeOf s bound) (translations s bound) s component
      (baseName component hint) resolved.kind r ++ [⟨s.position, a, type⟩]) r r' := by
  have hmakes := makes_of_typeOf h
  rw [typeOf_of_object hresolve hkind hsome] at h
  unfold objectType at h
  rw [hkind]
  cases hknown : component.bind (r.assigned? s.position) with
  | some known =>
    rw [partTranslations_of_known hknown]
    refine unclaimed_alone hmakes hcredited fun hends => ?_
    rw [hends.component_eq_none hresolve hkind] at hknown
    cases hknown
  | none =>
    rw [hknown] at h
    rw [partTranslations_of_new hknown]
    obtain ⟨⟨members, r₂⟩, hmembers, h⟩ := bind_eq_ok.mp h
    have hended : endObject s component (madeType s component hint resolved members r) r₂ =
        (type, r') := Except.ok.inj h
    obtain ⟨rfl, rfl⟩ := Prod.mk.inj hended
    obtain ⟨made, new, hturn, -⟩ := madeInTurn_of_membersOf hmembers
    exact unclaimed_of_new hcredited hresolve hkind hknown
      (makesMembers_of_membersOf makes_of_typeOf hmembers)
      (unclaimed_inTurn (fun _ _ _ _ _ h => ih h) hturn
        (hcredited.beginObject hresolve hint hknown))

theorem unclaimed_translations (h : typeOf s bound a hint r = .ok (type, r'))
    (hcredited : r.Credited s.components) :
    Unclaimed s.components (translations s bound a hint r) r r' := by
  induction bound generalizing a hint r type r' with
  | zero => cases h
  | succ bound ih =>
    have hmakes := makes_of_typeOf h
    obtain ⟨⟨component, resolved⟩, hresolve, -⟩ := bind_eq_ok.mp h
    rw [translations_eq h hresolve]
    obtain hkind | hkind | hkind | ⟨items, hkind⟩ | ⟨properties, required, hkind, hsome⟩ :=
      kind_cases resolved.kind
    · rw [partTranslations_of_leaf (Or.inl hkind)]
      exact unclaimed_alone hmakes hcredited (not_endsInline_of_leaf (Or.inl hkind) hresolve)
    · rw [partTranslations_of_leaf (Or.inr hkind)]
      exact unclaimed_alone hmakes hcredited (not_endsInline_of_leaf (Or.inr hkind) hresolve)
    · rw [typeOf_of_array_none hresolve hkind] at h
      cases h
    · rw [typeOf_of_array hresolve hkind] at h
      obtain ⟨⟨item, r₁⟩, hitem, h⟩ := bind_eq_ok.mp h
      obtain ⟨⟨itemComponent, resolvedItem⟩, hitems, h⟩ := bind_eq_ok.mp h
      obtain ⟨rfl, rfl⟩ := Prod.mk.inj (Except.ok.inj h)
      have hlog := ih hitem hcredited
      rw [hkind]
      refine hlog.snoc fun hends => ?_
      rcases EndsInline.cases_of_resolve hends hresolve with
        ⟨-, _, _, hobject, -⟩ | ⟨_, harray, hends⟩
      · cases hkind.symm.trans hobject
      · obtain rfl := Option.some.inj (SchemaKind.array.inj (hkind.symm.trans harray))
        have hleaf : (TypeRef.list (item.excludeNullIf !resolvedItem.data.nullable)).leaf =
            item.leaf := by rw [TypeRef.leaf, leaf_excludeNullIf]
        have hlisted := hlog.listed _ (mem_translations hitem) hends
        rw [← hleaf] at hlisted
        exact hlisted
    · exact unclaimed_of_objectType ih h hcredited hresolve hkind hsome

end Schemas

/-- Of everything that is translated for endpoints, no component was given the name of a type that
ends inline. -/
theorem unclaimed_translationsFor {c : Components} {endpoints : List Endpoint} {roots : Roots}
    {r : Registry} (h : rootFields c {} endpoints (.start c.schemas.keys) = .ok (roots, r)) :
    Unclaimed c (translationsFor c endpoints) (.start c.schemas.keys) r := by
  obtain ⟨made, fields, hmade, -⟩ := madeInTurn_of_rootFields h
  exact unclaimed_inTurn (fun _ _ _ _ _ hmake hcredited => unclaimed_translations hmake hcredited)
    hmade (.start c)

end ApiGraph.Generation
