import ApiGraph.GraphQL.Validation
import ApiGraph.Proofs.Lists
import Mathlib.Data.List.Dedup
import Mathlib.Logic.Relation

/-!
# Input objects that need themselves

The check of a schema looks for an input object of which a value needs another one.  It collects
what is needed, round by round, and stops when a round finds nothing new, or after as many rounds as
there are input objects.

That is enough: in each round but the last, an input object that was found is needed by one whose
requirements had not all been found before, and from then on they have.

* `closed_requiredWithin`: when the search stops, all that is needed has been found.
* `requiresItself_iff`: the check finds exactly the input objects on a cycle.
* `requires_of_selfReference`, `not_requires_of_valid`: what the violation, and its absence, say.
-/

namespace ApiGraph.GraphQL

open Relation (TransGen ReflTransGen)

theorem TypeRef.required?_eq_some {type : TypeRef} {name : String} :
    type.required? = some name ↔ type = .nonNull (.named name) := by
  constructor
  · intro h
    unfold TypeRef.required? at h
    split at h
    · rw [Option.some.inj h]
    · cases h
  · rintro rfl
    rfl

namespace Schema

variable {s : Schema} {name : String} {found : List String}

/-- A value of the first input object needs one of the second. -/
def Requires (s : Schema) (a b : String) : Prop :=
  b ∈ s.requiredBy a

/-- Of how many input objects some requirement has not been found? -/
def pending (s : Schema) (found : List String) : Nat :=
  s.inputs.countP fun i => !(s.requiredBy i.name).all found.contains

/-- What the next round adds. -/
def nextRound (s : Schema) (found : List String) : List String :=
  (found.flatMap s.requiredBy).filter fun n => !found.contains n

theorem requiredWithin_succ (steps : Nat) (found : List String) :
    s.requiredWithin (steps + 1) found =
      if (s.nextRound found).isEmpty then found
      else s.requiredWithin steps (found ++ (s.nextRound found).eraseDups) := rfl

theorem mem_nextRound : name ∈ s.nextRound found ↔
    (∃ a ∈ found, s.Requires a name) ∧ name ∉ found := by
  simp [nextRound, Requires]

/-! ## Nothing too much is found -/

theorem reaches_of_mem_requiredWithin {steps : Nat} (h : name ∈ s.requiredWithin steps found) :
    ∃ a ∈ found, ReflTransGen s.Requires a name := by
  induction steps generalizing found with
  | zero => exact ⟨name, h, .refl⟩
  | succ steps ih =>
    rw [requiredWithin_succ] at h
    split at h
    · exact ⟨name, h, .refl⟩
    · obtain ⟨b, hb, hreaches⟩ := ih h
      rcases List.mem_append.mp hb with hb | hb
      · exact ⟨b, hb, hreaches⟩
      · obtain ⟨⟨a, ha, hstep⟩, -⟩ := mem_nextRound.mp (List.mem_eraseDups.mp hb)
        exact ⟨a, ha, .head hstep hreaches⟩

/-! ## Nothing is missed -/

theorem subset_requiredWithin (steps : Nat) (found : List String) :
    found ⊆ s.requiredWithin steps found := by
  induction steps generalizing found with
  | zero => exact List.Subset.refl found
  | succ steps ih =>
    rw [requiredWithin_succ]
    split
    · exact List.Subset.refl found
    · exact List.Subset.trans (List.subset_append_left ..) (ih _)

/-- Only input objects require anything. -/
theorem exists_input_of_requires {a b : String} (h : s.Requires a b) :
    ∃ i ∈ s.inputs, i.name = a := by
  unfold Requires requiredBy at h
  split at h
  · rename_i i hi
    have hfind : (s.inputs.find? fun k => k.name == a) = some i := hi
    have hname := List.find?_some hfind
    exact ⟨i, List.mem_of_find?_eq_some hfind, beq_iff_eq.mp hname⟩
  · exact absurd h List.not_mem_nil

theorem isPending_iff {a : String} :
    (!(s.requiredBy a).all found.contains) = true ↔ ∃ b, s.Requires a b ∧ b ∉ found := by
  simp [Requires]

/-- A round that finds something leaves fewer input objects pending. -/
theorem pending_lt (h : s.nextRound found ≠ []) :
    s.pending (found ++ (s.nextRound found).eraseDups) < s.pending found := by
  obtain ⟨b, hb⟩ := List.exists_mem_of_ne_nil _ h
  obtain ⟨⟨a, ha, hrequires⟩, hnew⟩ := mem_nextRound.mp hb
  obtain ⟨i, hi, rfl⟩ := exists_input_of_requires hrequires
  refine countP_lt_countP hi (fun k _ hk => ?_) ?_ (isPending_iff.mpr ⟨b, hrequires, hnew⟩)
  · obtain ⟨b, hrequires, hnew⟩ := isPending_iff.mp hk
    exact isPending_iff.mpr ⟨b, hrequires, fun hmem => hnew (List.mem_append_left _ hmem)⟩
  · -- All that the input object requires is there, now or before.
    refine Bool.eq_false_iff.mpr fun hk => ?_
    obtain ⟨b, hrequires, hnew⟩ := isPending_iff.mp hk
    obtain ⟨hold, hnext⟩ := not_or.mp (mt List.mem_append.mpr hnew)
    exact hnext (List.mem_eraseDups.mpr (mem_nextRound.mpr ⟨⟨i.name, ha, hrequires⟩, hold⟩))

/-- With as many rounds as there are input objects pending, all that is needed is found. -/
theorem closed_requiredWithin {steps : Nat} (hsteps : s.pending found ≤ steps) {a b : String}
    (ha : a ∈ s.requiredWithin steps found) (h : s.Requires a b) :
    b ∈ s.requiredWithin steps found := by
  induction steps generalizing found with
  | zero =>
    obtain ⟨i, hi, rfl⟩ := exists_input_of_requires h
    by_contra hnew
    have hnone := List.countP_eq_zero.mp (Nat.le_zero.mp hsteps) i hi
    exact hnone (isPending_iff.mpr ⟨b, h, hnew⟩)
  | succ steps ih =>
    rw [requiredWithin_succ] at ha ⊢
    by_cases hnext : s.nextRound found = []
    · rw [hnext, List.isEmpty_nil, if_pos rfl] at ha ⊢
      by_contra hnew
      have hmem : b ∈ s.nextRound found := mem_nextRound.mpr ⟨⟨a, ha, h⟩, hnew⟩
      rw [hnext] at hmem
      exact List.not_mem_nil hmem
    · have hsome : ¬ (s.nextRound found).isEmpty = true := mt List.isEmpty_iff.mp hnext
      rw [if_neg hsome] at ha ⊢
      have hlt := pending_lt hnext
      exact ih (by omega) ha

/-- What is found is what can be reached. -/
theorem mem_requiredWithin_iff {steps : Nat} (hsteps : s.pending found ≤ steps) :
    name ∈ s.requiredWithin steps found ↔ ∃ a ∈ found, ReflTransGen s.Requires a name := by
  refine ⟨reaches_of_mem_requiredWithin, ?_⟩
  rintro ⟨a, ha, hreaches⟩
  induction hreaches with
  | refl => exact subset_requiredWithin steps found ha
  | tail _ hstep ih => exact closed_requiredWithin hsteps ih hstep

/-- The check finds exactly the input objects that need a value of themselves. -/
theorem requiresItself_iff : s.requiresItself name = true ↔ TransGen s.Requires name name := by
  rw [requiresItself, List.contains_iff_mem, mem_requiredWithin_iff List.countP_le_length,
    TransGen.head'_iff]
  simp only [List.mem_eraseDups, Requires]

end Schema

/-! ## The violation -/

variable {s : Schema} {name : String}

theorem ofFieldName?_ne_selfReference (type field : String) :
    Violation.ofFieldName? type field ≠ some (.selfReference name) := by
  intro h
  unfold Violation.ofFieldName? at h
  split at h <;> cases h

theorem inObject?_ne_selfReference (o : ObjectType) :
    Violation.inObject? o ≠ some (.selfReference name) := by
  intro h
  obtain ⟨f, -, hf⟩ := List.exists_of_findSome?_eq_some h
  rcases Option.or_eq_some_iff.mp hf with hf | ⟨-, hf⟩
  · exact ofFieldName?_ne_selfReference _ _ hf
  · obtain ⟨a, -, ha⟩ := List.exists_of_findSome?_eq_some hf
    unfold Violation.ofArgumentName? at ha
    split at ha <;> cases ha

theorem requiresItself_of_inInput? {i : InputObject}
    (h : Violation.inInput? s i = some (.selfReference name)) :
    i.name = name ∧ s.requiresItself name = true := by
  rcases Option.or_eq_some_iff.mp h with hfield | ⟨-, hself⟩
  · obtain ⟨f, -, hf⟩ := List.exists_of_findSome?_eq_some hfield
    exact absurd hf (ofFieldName?_ne_selfReference _ _)
  · split at hself
    · rename_i hrequires
      cases hself
      exact ⟨rfl, hrequires⟩
    · cases hself

/-- The input object of which the check complains is on a cycle. -/
theorem requires_of_selfReference (h : s.violation? = some (.selfReference name)) :
    (∃ i ∈ s.inputs, i.name = name) ∧ TransGen s.Requires name name := by
  rcases Option.or_eq_some_iff.mp h with h | ⟨-, h⟩
  · obtain ⟨n, -, hn⟩ := List.exists_of_findSome?_eq_some h
    unfold Violation.inTypeName? at hn
    split at hn <;> cases hn
  rcases Option.or_eq_some_iff.mp h with h | ⟨-, h⟩
  · obtain ⟨o, -, ho⟩ := List.exists_of_findSome?_eq_some h
    exact absurd ho (inObject?_ne_selfReference o)
  · obtain ⟨i, hi, hviolation⟩ := List.exists_of_findSome?_eq_some h
    obtain ⟨hname, hrequires⟩ := requiresItself_of_inInput? hviolation
    exact ⟨⟨i, hi, hname⟩, Schema.requiresItself_iff.mp hrequires⟩

/-- In a valid schema no input object is on a cycle. -/
theorem not_requires_of_valid (h : s.violation? = none) : ¬ TransGen s.Requires name name := by
  intro hcycle
  obtain ⟨b, hb, -⟩ := TransGen.head'_iff.mp hcycle
  obtain ⟨i, hi, rfl⟩ := Schema.exists_input_of_requires hb
  have hinputs := (Option.or_eq_none_iff.mp (Option.or_eq_none_iff.mp h).2).2
  have hself := (Option.or_eq_none_iff.mp (List.findSome?_eq_none_iff.mp hinputs i hi)).2
  rw [if_pos (Schema.requiresItself_iff.mpr hcycle)] at hself
  cases hself

end ApiGraph.GraphQL
