import ApiGraph.Generation.RootFields
import Mathlib.Data.List.Nodup
import Mathlib.Data.List.Perm.Subperm

/-!
# Names that are handed out

A claim yields a name that was free, so no name is handed out twice: the numbered names are pairwise
different, and one more of them is tried than there are names to avoid (`isFree_choose`).  The names
that were taken before stay taken.

All names made on the way are names of GraphQL: what is appended to a name consists of characters of
names.
-/

namespace ApiGraph.GraphQL

/-- All characters of a name may stand in a name, also behind another one. -/
theorem all_isNameChar_of_isName {s : String} (h : isName s = true) :
    s.toList.all isNameChar = true := by
  unfold isName at h
  cases hs : s.toList with
  | nil => rfl
  | cons c r =>
    rw [hs] at h
    simp only [Bool.and_eq_true] at h
    rw [List.all_cons, h.1.1, h.2, Bool.and_self]

theorem isName_append {s t : String} (hs : isName s = true) (ht : t.toList.all isNameChar = true) :
    isName (s ++ t) = true := by
  unfold isName at hs ⊢
  rw [String.toList_append]
  cases hc : s.toList with
  | nil =>
    rw [hc] at hs
    exact absurd hs Bool.false_ne_true
  | cons c r =>
    rw [hc] at hs
    simp only [Bool.and_eq_true] at hs
    simp only [List.cons_append, List.all_append, Bool.and_eq_true]
    exact ⟨hs.1, hs.2, ht⟩

theorem isName_append_isName {s t : String} (hs : isName s = true) (ht : isName t = true) :
    isName (s ++ t) = true :=
  isName_append hs (all_isNameChar_of_isName ht)

end ApiGraph.GraphQL

namespace ApiGraph.Generation

open ApiGraph.GraphQL

namespace NamePool

/-! ## Numbered names -/

theorem numbered_injective (name : String) : Function.Injective (numbered name) := by
  intro m n h
  have hchars := congrArg String.toList h
  rw [numbered, numbered, String.toList_append, String.toList_append, String.toList_ofList,
    String.toList_ofList] at hchars
  have hdigits := congrArg (Nat.ofDigitChars 10 · 0) (List.append_cancel_left hchars)
  simp only [Nat.ofDigitChars_ten_toDigits] at hdigits
  exact hdigits

theorem isName_numbered {name : String} (h : isName name = true) (n : Nat) :
    isName (numbered name n) = true := by
  refine isName_append h ?_
  rw [String.toList_ofList, List.all_eq_true]
  intro c hc
  have hdigit := Nat.isDigit_of_mem_toDigits (by decide) (Nat.le_refl 10) hc
  simp [isNameChar, Char.isAlphanum, hdigit]

/-! ## The first free name -/

variable {p : NamePool} {claimant : Claimant} {preferred : String}

theorem not_mem_taken_of_isFree {name : String} (h : p.isFree claimant name = true) :
    name ∉ p.taken := by
  rw [isFree, Bool.and_eq_true, Bool.not_eq_true', List.contains_eq_mem,
    decide_eq_false_iff_not] at h
  exact h.1

theorem mem_of_not_isFree {name : String} (h : p.isFree claimant name = false) :
    name ∈ p.taken ++ p.reserved := by
  by_contra hnot
  rw [List.mem_append, not_or] at hnot
  simp [isFree, hnot.1, hnot.2] at h

/-- The numbered names that a claim tries. -/
def candidates (p : NamePool) (preferred : String) (n : Nat) : List String :=
  (List.range (p.taken.length + p.reserved.length + 1)).map fun k => numbered preferred (n + k)

theorem nodup_candidates (p : NamePool) (preferred : String) (n : Nat) :
    (p.candidates preferred n).Nodup := by
  refine List.Nodup.map (fun i j h => ?_) List.nodup_range
  exact Nat.add_left_cancel (numbered_injective preferred h)

/-- Among one more numbered names than there are names to avoid, one is free. -/
theorem exists_isFree (p : NamePool) (claimant : Claimant) (preferred : String) (n : Nat) :
    ∃ k ≤ p.taken.length + p.reserved.length,
      p.isFree claimant (numbered preferred (n + k)) = true := by
  by_contra hnone
  push Not at hnone
  have hsubset : p.candidates preferred n ⊆ p.taken ++ p.reserved := by
    intro name hname
    obtain ⟨k, hk, rfl⟩ := List.mem_map.mp hname
    have hlt := List.mem_range.mp hk
    exact mem_of_not_isFree (Bool.eq_false_iff.mpr (hnone k (by omega)))
  have hlength := ((nodup_candidates p preferred n).subperm hsubset).length_le
  rw [candidates, List.length_map, List.length_range, List.length_append] at hlength
  omega

/-- The first free name is the one with the least number. -/
theorem firstFree_spec {tries n : Nat}
    (h : ∃ k ≤ tries, p.isFree claimant (numbered preferred (n + k)) = true) :
    ∃ k, n ≤ k ∧ p.firstFree claimant preferred tries n = numbered preferred k ∧
      p.isFree claimant (numbered preferred k) = true ∧
      ∀ j, n ≤ j → j < k → p.isFree claimant (numbered preferred j) = false := by
  induction tries generalizing n with
  | zero =>
    obtain ⟨k, hk, hfree⟩ := h
    obtain rfl := Nat.le_zero.mp hk
    refine ⟨n, Nat.le_refl n, rfl, hfree, fun j hj hlt => ?_⟩
    exact absurd hlt (Nat.not_lt.mpr hj)
  | succ tries ih =>
    rw [firstFree]
    by_cases hn : p.isFree claimant (numbered preferred n) = true
    · rw [if_pos hn]
      refine ⟨n, Nat.le_refl n, rfl, hn, fun j hj hlt => ?_⟩
      exact absurd hlt (Nat.not_lt.mpr hj)
    · rw [if_neg hn]
      obtain ⟨k, hk, hfree⟩ := h
      have hpos : k ≠ 0 := by
        rintro rfl
        exact hn hfree
      have hshift : n + 1 + (k - 1) = n + k := by omega
      obtain ⟨m, hm, heq, hmfree, hleast⟩ := ih (n := n + 1) ⟨k - 1, by omega, hshift ▸ hfree⟩
      refine ⟨m, by omega, heq, hmfree, fun j hj hlt => ?_⟩
      by_cases hjn : j = n
      · rw [hjn]
        exact Bool.eq_false_iff.mpr hn
      · exact hleast j (by omega) hlt

/-- What a claim yields was free: the preferred name, or that with the least number from two on. -/
theorem choose_spec (p : NamePool) (claimant : Claimant) (preferred : String) :
    p.isFree claimant (p.choose claimant preferred) = true ∧
      (p.choose claimant preferred = preferred ∨
        ∃ k, 2 ≤ k ∧ p.choose claimant preferred = numbered preferred k ∧
          ∀ j, 2 ≤ j → j < k → p.isFree claimant (numbered preferred j) = false) := by
  rw [choose]
  by_cases h : p.isFree claimant preferred = true
  · rw [if_pos h]
    exact ⟨h, Or.inl rfl⟩
  · rw [if_neg h]
    obtain ⟨k, hk, heq, hfree, hleast⟩ := firstFree_spec (exists_isFree p claimant preferred 2)
    exact ⟨heq ▸ hfree, Or.inr ⟨k, hk, heq, hleast⟩⟩

theorem isFree_choose (p : NamePool) (claimant : Claimant) (preferred : String) :
    p.isFree claimant (p.choose claimant preferred) = true :=
  (choose_spec p claimant preferred).1

end NamePool

/-- The name is the preferred one with a number behind it. -/
def IsNumbered (preferred name : String) : Prop :=
  ∃ k, 2 ≤ k ∧ name = NamePool.numbered preferred k

/-- The name is the preferred one, with or without a number behind it. -/
def IsVariant (preferred name : String) : Prop :=
  name = preferred ∨ IsNumbered preferred name

theorem IsVariant.isName {preferred name : String} (h : IsVariant preferred name)
    (hpreferred : isName preferred = true) : isName name = true := by
  rcases h with rfl | ⟨k, -, rfl⟩
  · exact hpreferred
  · exact NamePool.isName_numbered hpreferred k

namespace NamePool

theorem isVariant_choose (p : NamePool) (claimant : Claimant) (preferred : String) :
    IsVariant preferred (p.choose claimant preferred) :=
  (choose_spec p claimant preferred).2.imp_right fun ⟨k, hk, heq, _⟩ => ⟨k, hk, heq⟩

theorem isName_choose (p : NamePool) (claimant : Claimant) {preferred : String}
    (h : isName preferred = true) : isName (p.choose claimant preferred) = true :=
  (isVariant_choose p claimant preferred).isName h

end NamePool

/-! ## Names of types to make -/

theorem isName_preferred (position : Position) {base : String} (h : isName base = true) :
    isName (position.preferred base) = true := by
  cases position with
  | output => exact h
  | input => exact isName_append_isName h rfl

theorem isName_propertyHint {owner : String} (h : isName owner = true) (property : String) :
    isName (propertyHint owner property) = true :=
  isName_append_isName h (isName_typeName property)

theorem isName_itemHint {name : String} (h : isName name = true) :
    isName (itemHint name) = true :=
  isName_append_isName h rfl

/-- What a schema's types are called after: its component, or the hint. -/
def baseName (component : Option String) (hint : String) : String :=
  match component with
  | some c => typeName c
  | none => hint

theorem isName_baseName (component : Option String) {hint : String} (h : isName hint = true) :
    isName (baseName component hint) = true := by
  cases component with
  | none => exact h
  | some c => exact isName_typeName c

theorem isName_ownerName (s : Setting) {base claimed : String} (hbase : isName base = true)
    (hclaimed : isName claimed = true) : isName (s.ownerName base claimed) = true := by
  unfold Setting.ownerName
  cases s.position with
  | output => exact hclaimed
  | input => exact hbase

theorem isName_endpoint_fieldName (e : OpenApi.Endpoint) : isName e.fieldName = true := by
  unfold OpenApi.Endpoint.fieldName
  cases e.operationId with
  | none => exact isName_fieldName _
  | some id => exact isName_fieldName id

end ApiGraph.Generation
