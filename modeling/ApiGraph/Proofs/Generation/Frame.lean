import ApiGraph.Proofs.Generation.Fields
import ApiGraph.Proofs.Generation.Registry

/-!
# What making a type leaves alone

While a type is made, other types are begun, finished and given up, all under names that nobody had
before.  So whatever is registered under a name that was handed out earlier stays as it is: types
that are finished, and types that somebody else has begun and not finished yet.  Components that
have types keep them.

* `Makes.extends`: every rule leaves the registry alone in this way (`Registry.Extends`).
* `Makes.wellNamed`: types are registered under their own names, every name is registered once, and
  only names that were handed out are (`Registry.WellNamed`).
* `Registry.Extends.keeps`: what can be said about finished types remains true (`Registry.Keeps`).
-/

namespace ApiGraph.Generation

open ApiGraph.GraphQL hiding Schema
open ApiGraph.OpenApi (RefOr Schema)

/-! ## Registries that are extended -/

/-- The second registry has new names; under the old ones nothing has changed. -/
structure Registry.Extends (r r' : Registry) : Prop where
  taken : ∀ name ∈ r.names.taken, name ∈ r'.names.taken
  registered : ∀ position, ∀ name ∈ r.names.taken,
    r'.registered? position name = r.registered? position name
  assigned : ∀ position c type, r.assigned? position c = some type →
    r'.assigned? position c = some type
  usesJson : r.usesJson = true → r'.usesJson = true

namespace Registry.Extends

theorem refl (r : Registry) : r.Extends r :=
  ⟨fun _ h => h, fun _ _ _ => rfl, fun _ _ _ h => h, fun h => h⟩

theorem trans {r r₁ r' : Registry} (h : r.Extends r₁) (h' : r₁.Extends r') : r.Extends r' := by
  refine ⟨fun name hname => h'.taken name (h.taken name hname), fun position name hname => ?_,
    fun position c type hc => h'.assigned position c type (h.assigned position c type hc),
    fun huses => h'.usesJson (h.usesJson huses)⟩
  rw [h'.registered position name (h.taken name hname), h.registered position name hname]

theorem useJson (r : Registry) : r.Extends r.useJson :=
  ⟨fun _ h => h, fun _ _ _ => registered?_useJson .., fun _ _ _ h => h, fun _ => rfl⟩

end Registry.Extends

/-! ## A type that has been begun -/

section Objects

variable {s : Setting} {component : Option String} {base : String} {r : Registry}

/-- While its members are made, the type stays as it was begun. -/
theorem registered?_claimedName {r₂ : Registry}
    (h : (beginObject s component base r).2.Extends r₂) :
    r₂.registered? s.position (claimedName s component base r) = some none := by
  rw [h.registered s.position _ (taken_beginObject .. ▸ List.mem_cons_self ..),
    registered?_beginObject]
  exact if_pos ⟨rfl, rfl⟩

/-- Beginning a type leaves the registry alone. -/
theorem extends_beginObject (base : String) (hnew : component.bind (r.assigned? s.position) = none) :
    r.Extends (beginObject s component base r).2 := by
  have hfresh := not_mem_taken_claimedName s component base r
  refine ⟨fun name hmem => ?_, fun p name hmem => ?_, fun p c type hc => ?_, fun huses => ?_⟩
  · rw [taken_beginObject]
    exact List.mem_cons_of_mem _ hmem
  · have hne : ¬ (p = s.position ∧ name = claimedName s component base r) :=
      fun heq => hfresh (heq.2 ▸ hmem)
    rw [registered?_beginObject, if_neg hne]
  · have hne : ¬ (p = s.position ∧ component = some c) := by
      rintro ⟨rfl, rfl⟩
      exact nomatch hc.symm.trans hnew
    rw [assigned?_beginObject, if_neg hne, hc]
  · rw [usesJson_beginObject, huses]

/-- From before its beginning to behind its end, a type leaves the registry alone. -/
theorem extends_of_object {t : Composite} {r₂ : Registry}
    (hnew : component.bind (r.assigned? s.position) = none)
    (hname : t.name = claimedName s component base r)
    (h : (beginObject s component base r).2.Extends r₂) :
    r.Extends (endObject s component t r₂).2 := by
  have hfresh := not_mem_taken_claimedName s component base r
  have hbefore : r.Extends r₂ := (extends_beginObject base hnew).trans h
  refine ⟨fun name hmem => ?_, fun p name hmem => ?_, fun p c type hc => ?_, fun huses => ?_⟩
  · rw [names_endObject]
    exact hbefore.taken name hmem
  · have hne : ¬ (p = s.position ∧ name = t.name) :=
      fun heq => hfresh (hname ▸ heq.2 ▸ hmem)
    rw [registered?_endObject hne, hbefore.registered p name hmem]
  · have hne : ¬ (p = s.position ∧ component = some c) := by
      rintro ⟨rfl, rfl⟩
      exact nomatch hc.symm.trans hnew
    rw [assigned?_endObject hne, hbefore.assigned p c type hc]
  · exact usesJson_endObject (hbefore.usesJson huses)

end Objects

variable {s : Setting}

mutual

theorem Makes.extends {schema : RefOr Schema} {hint : String} {r r' : Registry} {type : TypeRef}
    (hmakes : Makes s schema hint r type r') : r.Extends r' :=
  match hmakes with
  | .scalar _ _ => .refl r
  | .json _ _ => .useJson r
  | .array _ _ hitem _ => hitem.extends
  | .known _ _ _ => .refl r
  | .new _ _ hnew hmembers => extends_of_object hnew rfl hmembers.extends

theorem MakesMembers.extends {owner : String} {required : List String}
    {members members' : List InputValue} {properties : List (String × RefOr Schema)}
    {r r' : Registry}
    (hmakes : MakesMembers s owner required members properties r members' r') : r.Extends r' :=
  match hmakes with
  | .nil => .refl r
  | .hidden _ _ hrest => hrest.extends
  | .shown _ _ hmember _ hrest => hmember.extends.trans hrest.extends

end

/-! ## Registries with names that are in order -/

structure Registry.WellNamed (r : Registry) : Prop where
  taken : ∀ position, ∀ e ∈ r.types position, e.1 ∈ r.names.taken
  nodup : ∀ position, (r.types position).keys.Nodup
  /-- No name is registered in both positions. -/
  apart : ∀ p p', ∀ name ∈ (r.types p).keys, name ∈ (r.types p').keys → p = p'
  name : ∀ position, ∀ e ∈ r.types position, ∀ t, e.2 = some t → t.name = e.1

namespace Registry.WellNamed

variable {r : Registry}

theorem start (components : List String) : (Registry.start components).WellNamed := by
  refine ⟨fun position e he => ?_, fun position => ?_, fun p p' name hname => ?_,
    fun position e he => ?_⟩
  · rw [types_start] at he
    exact absurd he List.not_mem_nil
  · rw [types_start]
    exact List.nodup_nil
  · rw [types_start] at hname
    exact absurd hname List.not_mem_nil
  · rw [types_start] at he
    exact absurd he List.not_mem_nil

/-- Names may be handed out in between. -/
theorem of_types {r' : Registry} (h : r.WellNamed)
    (htypes : ∀ position, r'.types position = r.types position)
    (htaken : ∀ name ∈ r.names.taken, name ∈ r'.names.taken) : r'.WellNamed := by
  refine ⟨fun position e he => ?_, fun position => ?_, fun p p' => ?_, fun position e he => ?_⟩
  · rw [htypes] at he
    exact htaken _ (h.taken position e he)
  · rw [htypes]
    exact h.nodup position
  · rw [htypes, htypes]
    exact h.apart p p'
  · rw [htypes] at he
    exact h.name position e he

theorem setTypes (h : r.WellNamed) {position : Position} {types : Dictionary (Option Composite)}
    (htaken : ∀ e ∈ types, e.1 ∈ r.names.taken) (hnodup : types.keys.Nodup)
    (hapart : ∀ e ∈ types, ∀ p, e.1 ∈ (r.types p).keys → p = position)
    (hname : ∀ e ∈ types, ∀ t, e.2 = some t → t.name = e.1) :
    (r.setTypes position types).WellNamed := by
  refine ⟨fun p e he => ?_, fun p => ?_, fun p p' name hmem hmem' => ?_, fun p e he => ?_⟩
  · rw [names_setTypes]
    rcases mem_types_setTypes he with he | he
    · exact htaken e he
    · exact h.taken p e he
  · rw [types_setTypes]
    split
    · exact hnodup
    · exact h.nodup p
  · rw [types_setTypes] at hmem hmem'
    split at hmem <;> split at hmem'
    · rename_i hp hp'
      exact hp.symm.trans hp'
    · rename_i hp _
      obtain ⟨e, he, rfl⟩ := List.mem_map.mp hmem
      exact hp.symm.trans (hapart e he p' hmem').symm
    · rename_i hp'
      obtain ⟨e, he, rfl⟩ := List.mem_map.mp hmem'
      exact (hapart e he p hmem).trans hp'
    · exact h.apart p p' name hmem hmem'
  · rcases mem_types_setTypes he with he | he
    · exact hname e he
    · exact h.name p e he

theorem put (h : r.WellNamed) (position : Position) {name : String} {type : Option Composite}
    (htaken : name ∈ r.names.taken) (hapart : ∀ p, name ∈ (r.types p).keys → p = position)
    (hname : ∀ t, type = some t → t.name = name) :
    (r.setTypes position ((r.types position).put name type)).WellNamed := by
  have hold : ∀ e ∈ r.types position, ∀ p, e.1 ∈ (r.types p).keys → p = position :=
    fun e he p hp => h.apart p position e.1 hp (List.mem_map_of_mem he)
  refine h.setTypes (fun e he => ?_) (Dictionary.nodup_keys_put (h.nodup position) ..)
    (fun e he => ?_) (fun e he => ?_)
  · rcases Dictionary.mem_put he with rfl | he
    · exact htaken
    · exact h.taken position e he
  · rcases Dictionary.mem_put he with rfl | he
    · exact hapart
    · exact hold e he
  · rcases Dictionary.mem_put he with rfl | he
    · exact hname
    · exact h.name position e he

theorem discard (h : r.WellNamed) (position : Position) (name : String) :
    (r.discard position name).WellNamed := by
  refine h.setTypes (fun e he => ?_) (Dictionary.nodup_keys_erase (h.nodup position) name)
    (fun e he p hp => ?_) (fun e he => ?_)
  · exact h.taken position e (List.mem_of_mem_filter he)
  · exact h.apart p position e.1 hp (List.mem_map_of_mem (List.mem_of_mem_filter he))
  · exact h.name position e (List.mem_of_mem_filter he)

/-- A type is finished that was begun. -/
theorem finish (h : r.WellNamed) {position : Position} {t : Composite}
    (hbegun : t.name ∈ (r.types position).keys) : (r.finish position t).WellNamed := by
  obtain ⟨e, he, heq⟩ := List.mem_map.mp hbegun
  have htaken := h.taken position e he
  rw [heq] at htaken
  refine h.put position htaken (fun p hp => h.apart p position t.name hp hbegun) fun t' ht' => ?_
  rw [← Option.some.inj ht']

variable {component : Option String} {base : String}

theorem beginObject (h : r.WellNamed) :
    (beginObject s component base r).2.WellNamed := by
  have hclaimed : ((claimedRegistry s component base r).assignTo s.position component
      (.named (claimedName s component base r))).WellNamed := by
    refine h.of_types (fun position => ?_) (fun name hmem => ?_)
    · rw [types_assignTo, types_claimedRegistry]
    · rw [names_assignTo]
      exact List.mem_cons_of_mem _ hmem
  rw [beginObject_eq]
  refine hclaimed.put s.position ?_ (fun p hp => ?_) nofun
  · rw [names_assignTo]
    exact List.mem_cons_self ..
  · rw [types_assignTo, types_claimedRegistry] at hp
    obtain ⟨e, he, heq⟩ := List.mem_map.mp hp
    have htaken := h.taken p e he
    rw [heq] at htaken
    exact absurd htaken (not_mem_taken_claimedName s component base r)

theorem endObject (h : r.WellNamed) {t : Composite}
    (hbegun : t.name ∈ (r.types s.position).keys) : (endObject s component t r).2.WellNamed := by
  by_cases hempty : t.members = []
  · rw [endObject_of_nil hempty]
    refine (h.discard s.position t.name).of_types (fun position => ?_) (fun name hmem => ?_)
    · rw [types_assignTo, types_useJson]
    · rw [names_assignTo]
      exact hmem
  · rw [endObject_of_ne_nil hempty]
    exact h.finish hbegun

/-- Where a name is registered, it has been handed out. -/
theorem mem_taken (h : r.WellNamed) {position : Position} {name : String} {e : Option Composite}
    (hregistered : r.registered? position name = some e) : name ∈ r.names.taken :=
  h.taken position _ (Dictionary.mem_of_get? hregistered)

end Registry.WellNamed

mutual

theorem Makes.wellNamed {schema : RefOr Schema} {hint : String} {r r' : Registry} {type : TypeRef}
    (hmakes : Makes s schema hint r type r') (h : r.WellNamed) : r'.WellNamed :=
  match hmakes with
  | .scalar _ _ => h
  | .json _ _ => h.of_types (fun _ => Registry.types_useJson ..) fun _ hmem => hmem
  | .array _ _ hitem _ => hitem.wellNamed h
  | .known _ _ _ => h
  | .new _ _ _ hmembers =>
    (hmembers.wellNamed h.beginObject).endObject
      (Registry.mem_keys (registered?_claimedName hmembers.extends))

theorem MakesMembers.wellNamed {owner : String} {required : List String}
    {members members' : List InputValue} {properties : List (String × RefOr Schema)}
    {r r' : Registry}
    (hmakes : MakesMembers s owner required members properties r members' r') (h : r.WellNamed) :
    r'.WellNamed :=
  match hmakes with
  | .nil => h
  | .hidden _ _ hrest => hrest.wellNamed h
  | .shown _ _ hmember _ hrest => hrest.wellNamed (hmember.wellNamed h)

end

/-! ## What remains true -/

/-- What the first registry says about finished types, components and `JSON`, the second one does
too. -/
structure Registry.Keeps (r r' : Registry) : Prop where
  finished : ∀ position name t, r.registered? position name = some (some t) →
    r'.registered? position name = some (some t)
  assigned : ∀ position c type, r.assigned? position c = some type →
    r'.assigned? position c = some type
  usesJson : r.usesJson = true → r'.usesJson = true

namespace Registry.Keeps

theorem refl (r : Registry) : r.Keeps r :=
  ⟨fun _ _ _ h => h, fun _ _ _ h => h, fun h => h⟩

theorem trans {r r₁ r' : Registry} (h : r.Keeps r₁) (h' : r₁.Keeps r') : r.Keeps r' :=
  ⟨fun position name t ht => h'.finished position name t (h.finished position name t ht),
    fun position c type hc => h'.assigned position c type (h.assigned position c type hc),
    fun huses => h'.usesJson (h.usesJson huses)⟩

/-- A type is finished that was begun. -/
theorem finish {r : Registry} {position : Position} {t : Composite}
    (h : r.registered? position t.name = some none) : r.Keeps (r.finish position t) := by
  refine ⟨fun p name t' ht => ?_, fun p c type hc => ?_, fun huses => ?_⟩
  · rw [registered?_finish]
    split
    · rename_i heq
      obtain ⟨rfl, rfl⟩ := heq
      exact nomatch ht.symm.trans h
    · exact ht
  · rw [Registry.finish, assigned?_setTypes]
    exact hc
  · rw [Registry.finish, usesJson_setTypes]
    exact huses

end Registry.Keeps

theorem Registry.Extends.keeps {r r' : Registry} (h : r.Extends r') (hwell : r.WellNamed) :
    r.Keeps r' := by
  refine ⟨fun position name t ht => ?_, h.assigned, h.usesJson⟩
  rw [h.registered position name (hwell.mem_taken ht), ht]

end ApiGraph.Generation
