import ApiGraph.Proofs.Generation.Collisions
import ApiGraph.Proofs.Generation.Frame

/-!
# What types are called after

A type for answers is called after the component that it is for.  A schema that is no component is
called after the field whose answer it is, after the array that it is an item of, or after the type
that it is a member of and the property: that is the hint under which it is met (`Met`).  Where the
name is not free it gets a number, which is then part of the hints for its members.

* `Met.isName`: every hint is a name.
* `MakesFields.originated`: every type that is registered for answers has the name of a component
  or a hint, or one of these with a number, and every type for arguments has a name with the suffix
  for it.
-/

namespace ApiGraph.Generation

open ApiGraph.GraphQL hiding Schema
open ApiGraph.OpenApi (RefOr Schema Components Endpoint)
open Relation (ReflTransGen)

/-- The schema is met under the hint while types for answers are made. -/
inductive Met (c : Components) (endpoints : List Endpoint) : RefOr Schema → String → Prop
  | answer {e : Endpoint} {a : RefOr Schema} (he : e ∈ endpoints) (ha : a ∈ e.response) :
      Met c endpoints a (typeName e.fieldName)
  | item {a items : RefOr Schema} {hint : String} {component : Option String} {resolved : Schema}
      (h : Met c endpoints a hint)
      (hresolve : Setting.resolve ⟨c, .output⟩ a = .ok (component, resolved))
      (hkind : resolved.kind = .array (some items)) :
      Met c endpoints items (itemHint (baseName component hint))
  | member {a : RefOr Schema} {hint owner : String} {component : Option String} {resolved : Schema}
      {properties : List (String × RefOr Schema)} {required : List String}
      {p : String × RefOr Schema} (h : Met c endpoints a hint)
      (hresolve : Setting.resolve ⟨c, .output⟩ a = .ok (component, resolved))
      (hkind : resolved.kind = .object properties required)
      (howner : IsVariant (baseName component hint) owner)
      (hp : p ∈ Setting.visible ⟨c, .output⟩ properties) :
      Met c endpoints p.2 (propertyHint owner p.1)

variable {c : Components} {endpoints : List Endpoint}

theorem Met.isName {a : RefOr Schema} {hint : String} (h : Met c endpoints a hint) :
    isName hint = true := by
  induction h with
  | answer _ _ => exact isName_typeName _
  | item _ _ _ ih => exact isName_itemHint (isName_baseName _ ih)
  | member _ _ _ howner _ ih => exact isName_propertyHint (howner.isName (isName_baseName _ ih)) _

/-- A type in the position may have the name. -/
inductive NamedFor (c : Components) (endpoints : List Endpoint) : Position → String → Prop
  | answer {a : RefOr Schema} {hint name : String} {component : Option String} {resolved : Schema}
      {properties : List (String × RefOr Schema)} {required : List String}
      (hmet : Met c endpoints a hint)
      (hresolve : Setting.resolve ⟨c, .output⟩ a = .ok (component, resolved))
      (hkind : resolved.kind = .object properties required)
      (hname : IsVariant (baseName component hint) name) : NamedFor c endpoints .output name
  | argument {base name : String} (hname : IsVariant (base ++ inputSuffix) name) :
      NamedFor c endpoints .input name

/-- All types that are registered have such names. -/
def Registry.Originated (c : Components) (endpoints : List Endpoint) (r : Registry) : Prop :=
  ∀ position name e, r.registered? position name = some e → NamedFor c endpoints position name

theorem isVariant_claimedName (s : Setting) (component : Option String) (base : String)
    (r : Registry) : IsVariant (s.position.preferred base) (claimedName s component base r) :=
  NamePool.isVariant_choose ..

namespace Registry.Originated

variable {s : Setting} {component : Option String} {base : String} {r : Registry}

theorem start (components : List String) : (Registry.start components).Originated c endpoints := by
  intro position name e he
  rw [Registry.registered?, types_start] at he
  exact absurd he.symm (Option.some_ne_none e)

theorem useJson (h : r.Originated c endpoints) : r.useJson.Originated c endpoints := by
  intro position name e he
  rw [registered?_useJson] at he
  exact h position name e he

theorem beginObject (h : r.Originated c endpoints)
    (hname : NamedFor c endpoints s.position (claimedName s component base r)) :
    (beginObject s component base r).2.Originated c endpoints := by
  intro position name e he
  rw [registered?_beginObject] at he
  split at he
  · rename_i hown
    rw [hown.1, hown.2]
    exact hname
  · exact h position name e he

theorem endObject (h : r.Originated c endpoints) {t : Composite}
    (hname : NamedFor c endpoints s.position t.name) :
    (endObject s component t r).2.Originated c endpoints := by
  intro position name e he
  by_cases hown : position = s.position ∧ name = t.name
  · rw [hown.1, hown.2]
    exact hname
  · rw [registered?_endObject hown] at he
    exact h position name e he

end Registry.Originated

section Types

variable {s : Setting} {a : RefOr Schema} {hint : String} {component : Option String}
  {resolved : Schema} {properties : List (String × RefOr Schema)} {required : List String}

theorem namedFor_claimedName (r : Registry)
    (hmet : s.position = .output → Met s.components endpoints a hint)
    (hresolve : s.resolve a = .ok (component, resolved))
    (hkind : resolved.kind = .object properties required) :
    NamedFor s.components endpoints s.position
      (claimedName s component (baseName component hint) r) := by
  have hvariant := isVariant_claimedName s component (baseName component hint) r
  obtain ⟨components, position⟩ := s
  cases position with
  | output => exact .answer (hmet rfl) hresolve hkind hvariant
  | input => exact .argument hvariant

/-- For answers, the members of a type are called after the name that the type got. -/
theorem Met.visible (r : Registry) (hs : s.position = .output)
    (hmet : Met s.components endpoints a hint) (hresolve : s.resolve a = .ok (component, resolved))
    (hkind : resolved.kind = .object properties required) {p : String × RefOr Schema}
    (hp : p ∈ s.visible properties) :
    Met s.components endpoints p.2 (propertyHint (s.ownerName (baseName component hint)
      (beginObject s component (baseName component hint) r).1) p.1) := by
  have hvariant := isVariant_claimedName s component (baseName component hint) r
  obtain ⟨components, position⟩ := s
  obtain rfl : position = .output := hs
  exact hmet.member hresolve hkind hvariant hp

mutual

theorem Makes.originated {a : RefOr Schema} {hint : String} {r r' : Registry} {type : TypeRef}
    (hmakes : Makes s a hint r type r')
    (hmet : s.position = .output → Met s.components endpoints a hint)
    (h : r.Originated s.components endpoints) : r'.Originated s.components endpoints :=
  match hmakes with
  | .scalar _ _ => h
  | .json _ _ => h.useJson
  | .array hresolve hkind hitem _ =>
    hitem.originated (fun hs => (hmet hs).item (hs ▸ hresolve) hkind) h
  | .known _ _ _ => h
  | .new hresolve hkind _ hmembers => by
    have hname := namedFor_claimedName r hmet hresolve hkind
    refine (hmembers.originated (fun hs p hp => ?_) (h.beginObject hname)).endObject hname
    exact (hmet hs).visible r hs hresolve hkind hp

theorem MakesMembers.originated {owner : String} {required : List String}
    {members members' : List InputValue} {properties : List (String × RefOr Schema)}
    {r r' : Registry} (hmakes : MakesMembers s owner required members properties r members' r')
    (hmet : s.position = .output → ∀ p ∈ s.visible properties,
      Met s.components endpoints p.2 (propertyHint owner p.1))
    (h : r.Originated s.components endpoints) : r'.Originated s.components endpoints :=
  match hmakes with
  | .nil => h
  | .hidden hresolve hhides hrest => by
    rw [visible_cons, shows_of_resolve hresolve, hhides] at hmet
    exact hrest.originated hmet h
  | .shown hresolve hshows hmember _ hrest => by
    rw [visible_cons, shows_of_resolve hresolve, hshows, Bool.not_false, if_pos rfl] at hmet
    have hfirst := hmember.originated (fun hs => hmet hs _ (List.mem_cons_self ..)) h
    exact hrest.originated (fun hs p hp => hmet hs p (List.mem_cons_of_mem _ hp)) hfirst

end

end Types

variable {r r' : Registry}

theorem Step.originated (hstep : Step c endpoints r r') (h : r.Originated c endpoints) :
    r'.Originated c endpoints := by
  cases hstep with
  | answer he ha hmakes => exact hmakes.originated (fun _ => .answer he ha) h
  | argument _ _ hmakes => exact hmakes.originated nofun h

/-- All types have names of components, or hints, or these with a number. -/
theorem MakesFields.originated {components : List String} {roots roots' : Roots}
    (hmakes : MakesFields c roots endpoints (.start components) roots' r) :
    r.Originated c endpoints :=
  keeps_of_steps (fun _ _ => Step.originated) hmakes.steps (.start components)

end ApiGraph.Generation
