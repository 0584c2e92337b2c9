import ApiGraph.Proofs.Generation.Sound
import Mathlib.Data.List.Induction

/-!
# Names that are granted one after the other

A claim for a name is granted with some name.  Components and schemas without a name make their
claims in any order and with any preferences; what they are granted depends on all grants before,
and on who claims.  `Vacant` says which names a claimant may have at some point, in terms of these
grants alone.

* `choose_spec`, with `choose_of_isFree`, is what one claim yields.
* `pool_grants`: the names that are taken are those that were granted before.
* `orderly_grants`: what every sequence of grants is like (`Orderly`).
-/

namespace ApiGraph.Generation

open ApiGraph.GraphQL hiding Schema

/-- A claim and the name that it was granted. -/
structure Grant where
  claimant : Claimant
  preferred : String
  name : String
  deriving DecidableEq, Repr

/-- What has been claimed. -/
def Grant.claim (g : Grant) : Claimant × String :=
  (g.claimant, g.preferred)

namespace NamePool

/-- Grant claims, one after the other. -/
def grants (p : NamePool) : List (Claimant × String) → List Grant
  | [] => []
  | (claimant, preferred) :: rest =>
    let granted := p.claim claimant preferred
    ⟨claimant, preferred, granted.1⟩ :: granted.2.grants rest

/-- The names after some grants. -/
def after (p : NamePool) (gs : List Grant) : NamePool :=
  { p with taken := (gs.map (·.name)).reverse ++ p.taken }

theorem after_cons (p : NamePool) (g : Grant) (gs : List Grant) :
    p.after (g :: gs) = ({ p with taken := g.name :: p.taken } : NamePool).after gs := by
  simp [after]

end NamePool

/-! ## Vacant names -/

/-- May the claimant have the name after these grants?  The components are those whose names are
kept: their own and, in input position, with the suffix for it. -/
structure Vacant (components : List String) (before : List Grant) (claimant : Claimant)
    (name : String) : Prop where
  not_fixed : name ∉ fixedNames
  not_granted : ∀ g ∈ before, g.name ≠ name
  not_kept : claimant = .inlined → ∀ c ∈ components, ∀ position : Position,
    name ≠ position.preferred (typeName c)

/-- What one grant is like, behind those before: the preferred name if it is vacant, and otherwise
the name with the least number from two on that is. -/
structure Chosen (components : List String) (before : List Grant) (g : Grant) : Prop where
  vacant : Vacant components before g.claimant g.name
  preferred : Vacant components before g.claimant g.preferred → g.name = g.preferred
  numbered : ¬ Vacant components before g.claimant g.preferred →
    ∃ k, 2 ≤ k ∧ g.name = NamePool.numbered g.preferred k ∧
      ∀ j, 2 ≤ j → j < k →
        ¬ Vacant components before g.claimant (NamePool.numbered g.preferred j)

/-- What a sequence of grants is like. -/
structure Orderly (components : List String) (gs : List Grant) : Prop where
  chosen : ∀ before g rest, gs = before ++ g :: rest → Chosen components before g
  /-- No name is granted twice. -/
  nodup : (gs.map (·.name)).Nodup
  /-- The names of the roots and of `JSON` are not granted. -/
  not_fixed : ∀ g ∈ gs, g.name ∉ fixedNames
  /-- Schemas without a name step aside for components. -/
  inlined : ∀ g ∈ gs, g.claimant = .inlined → ∀ c ∈ components, ∀ position : Position,
    g.name ≠ position.preferred (typeName c)
  /-- A component gets the name of a component that it prefers, unless it is never granted or has
  been granted to a component before. -/
  component : ∀ before g rest c (position : Position), gs = before ++ g :: rest →
    c ∈ components → g.claimant = .component → g.preferred = position.preferred (typeName c) →
      g.preferred ∉ fixedNames →
        (∀ g' ∈ before, g'.claimant = .component → g'.name ≠ g.preferred) →
          g.name = g.preferred

/-! ## What is granted -/

namespace NamePool

theorem choose_of_isFree {p : NamePool} {claimant : Claimant} {preferred : String}
    (h : p.isFree claimant preferred = true) : p.choose claimant preferred = preferred := by
  rw [choose, if_pos h]

theorem mem_ofComponent {c name : String} :
    name ∈ ofComponent c ↔ ∃ position : Position, name = position.preferred (typeName c) := by
  simp only [ofComponent, List.mem_cons, List.not_mem_nil, or_false]
  constructor
  · rintro (h | h)
    · exact ⟨.input, h⟩
    · exact ⟨.output, h⟩
  · rintro ⟨position, h⟩
    cases position with
    | output => exact Or.inr h
    | input => exact Or.inl h

theorem mem_reserved_start {components : List String} {name : String} :
    name ∈ (start components).reserved ↔
      ∃ c ∈ components, ∃ position : Position, name = position.preferred (typeName c) := by
  rw [start, List.mem_flatMap]
  simp only [mem_ofComponent]

theorem isFree_eq_true_iff {p : NamePool} {claimant : Claimant} {name : String} :
    p.isFree claimant name = true ↔
      name ∉ p.taken ∧ (claimant = .inlined → name ∉ p.reserved) := by
  cases claimant <;> simp [isFree]

/-- Free are the vacant names. -/
theorem isFree_after_start {components : List String} {before : List Grant} {claimant : Claimant}
    {name : String} :
    ((start components).after before).isFree claimant name = true ↔
      Vacant components before claimant name := by
  have htaken : name ∉ ((start components).after before).taken ↔
      (∀ g ∈ before, g.name ≠ name) ∧ name ∉ fixedNames := by
    rw [after, List.mem_append, not_or, List.mem_reverse, List.mem_map]
    simp only [not_exists, not_and, ne_eq]
    rfl
  have hreserved : name ∉ ((start components).after before).reserved ↔
      ∀ c ∈ components, ∀ position : Position, name ≠ position.preferred (typeName c) := by
    have hsame : ((start components).after before).reserved = (start components).reserved := rfl
    rw [hsame, mem_reserved_start]
    simp only [not_exists, not_and, ne_eq]
  rw [isFree_eq_true_iff, htaken, hreserved]
  exact ⟨fun h => ⟨h.1.2, h.1.1, h.2⟩, fun h => ⟨⟨h.not_granted, h.not_fixed⟩, h.not_kept⟩⟩

/-- Each grant is the choice for its claim, when the names of all grants before are taken. -/
theorem pool_grants {p : NamePool} {claims : List (Claimant × String)} {before rest : List Grant}
    {g : Grant} (h : p.grants claims = before ++ g :: rest) :
    g.name = (p.after before).choose g.claimant g.preferred := by
  induction before generalizing p claims with
  | nil =>
    cases claims with
    | nil => exact nomatch h
    | cons claim claims =>
      obtain ⟨rfl, -⟩ := List.cons.inj h
      rfl
  | cons first before ih =>
    cases claims with
    | nil => exact nomatch h
    | cons claim claims =>
      obtain ⟨rfl, hrest⟩ := List.cons.inj h
      rw [after_cons]
      exact ih hrest

theorem claims_grants (p : NamePool) (claims : List (Claimant × String)) :
    (p.grants claims).map Grant.claim = claims := by
  induction claims generalizing p with
  | nil => rfl
  | cons claim claims ih =>
    rw [grants, List.map_cons, ih]
    rfl

end NamePool

open NamePool

theorem chosen_of_grants {components : List String} {claims : List (Claimant × String)}
    {before rest : List Grant} {g : Grant}
    (h : (start components).grants claims = before ++ g :: rest) :
    Chosen components before g := by
  obtain ⟨hfree, hcases⟩ := choose_spec ((start components).after before) g.claimant g.preferred
  rw [← pool_grants h] at hfree hcases
  refine ⟨isFree_after_start.mp hfree, fun hvacant => ?_, fun hnot => ?_⟩
  · rw [pool_grants h, choose_of_isFree (isFree_after_start.mpr hvacant)]
  · rcases hcases with heq | ⟨k, hk, heq, hleast⟩
    · exact absurd (isFree_after_start.mp (heq ▸ hfree)) hnot
    · refine ⟨k, hk, heq, fun j hj hlt hvacant => ?_⟩
      exact Bool.false_ne_true ((hleast j hj hlt).symm.trans (isFree_after_start.mpr hvacant))

theorem nodup_of_chosen {components : List String} {gs : List Grant}
    (h : ∀ before g rest, gs = before ++ g :: rest → Chosen components before g) :
    (gs.map (·.name)).Nodup := by
  induction gs using List.reverseRecOn with
  | nil => exact List.nodup_nil
  | append_singleton gs g ih =>
    have hlast := (h gs g [] rfl).vacant
    rw [List.map_append]
    refine (ih fun before g' rest heq => h before g' (rest ++ [g]) ?_).append
      (List.nodup_singleton _) (List.disjoint_singleton.mpr fun hmem => ?_)
    · rw [heq, List.append_assoc, List.cons_append]
    · obtain ⟨g', hg', heq⟩ := List.mem_map.mp hmem
      exact hlast.not_granted g' hg' heq

/-- Whoever claims which names, in whatever order: every claim is granted, and the grants are
orderly. -/
theorem orderly_grants (components : List String) (claims : List (Claimant × String)) :
    ((start components).grants claims).map Grant.claim = claims ∧
      Orderly components ((start components).grants claims) := by
  have hchosen : ∀ before g rest, (start components).grants claims = before ++ g :: rest →
      Chosen components before g := fun _ _ _ h => chosen_of_grants h
  have hvacant : ∀ g ∈ (start components).grants claims, ∃ before,
      Vacant components before g.claimant g.name := by
    intro g hg
    obtain ⟨before, rest, heq⟩ := List.append_of_mem hg
    exact ⟨before, (hchosen before g rest heq).vacant⟩
  refine ⟨claims_grants _ claims, hchosen, nodup_of_chosen hchosen, fun g hg => ?_,
    fun g hg hinlined => ?_, fun before g rest c position heq hc hcomponent hname hfixed hnew => ?_⟩
  · obtain ⟨_, h⟩ := hvacant g hg
    exact h.not_fixed
  · obtain ⟨_, h⟩ := hvacant g hg
    exact h.not_kept hinlined
  · refine (hchosen before g rest heq).preferred ⟨hfixed, fun g' hg' => ?_, fun h => ?_⟩
    · -- Only components can have been granted the name of a component.
      cases hclaimant : g'.claimant with
      | component => exact hnew g' hg' hclaimant
      | inlined =>
        have hmem : g' ∈ (start components).grants claims :=
          heq ▸ List.mem_append_left _ hg'
        obtain ⟨_, h⟩ := hvacant g' hmem
        exact fun h' => h.not_kept hclaimant c hc position (h'.trans hname)
    · exact nomatch hcomponent.symm.trans h

/-- An inlined schema steps aside for a component, and for its form in input position. -/
example : ((start ["PetsItem"]).grants [(.inlined, "PetsItem"), (.component, "PetsItem"),
    (.inlined, "PetsItemInput")]).map (·.name) = ["PetsItem2", "PetsItem", "PetsItemInput2"] := by
  decide +kernel

end ApiGraph.Generation
