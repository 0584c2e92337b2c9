import Mathlib.Data.List.Forall2
import Mathlib.Data.List.Nodup
import Mathlib.Data.List.Zip

/-!
# Lists

What the theory needs about lists of any kind: lists side by side, a name that is put behind others,
and counts that one element tells apart.
-/

namespace ApiGraph

variable {α β : Type}

/-! ## Side by side -/

section SideBySide

variable {R : α → β → Prop} {l : List α} {l' : List β}

theorem exists_mem_zip (h : List.Forall₂ R l l') {a : α} (ha : a ∈ l) :
    ∃ b, (a, b) ∈ l.zip l' := by
  induction h with
  | nil => exact absurd ha List.not_mem_nil
  | cons _ _ ih =>
    rcases List.mem_cons.mp ha with rfl | ha
    · exact ⟨_, List.mem_cons_self ..⟩
    · obtain ⟨b, hb⟩ := ih ha
      exact ⟨b, List.mem_cons_of_mem _ hb⟩

theorem exists_zip_of_mem (h : List.Forall₂ R l l') {b : β} (hb : b ∈ l') :
    ∃ a, (a, b) ∈ l.zip l' := by
  obtain ⟨a, hzip⟩ := exists_mem_zip h.flip hb
  refine ⟨a, ?_⟩
  rw [← List.zip_swap]
  exact List.mem_map.mpr ⟨(b, a), hzip, rfl⟩

theorem exists_of_forall₂ (h : List.Forall₂ R l l') {a : α} (ha : a ∈ l) : ∃ b ∈ l', R a b := by
  obtain ⟨b, hzip⟩ := exists_mem_zip h ha
  exact ⟨b, (List.of_mem_zip hzip).2, List.forall₂_zip h hzip⟩

theorem exists_forall₂ (h : ∀ a ∈ l, ∃ b, R a b) : ∃ l', List.Forall₂ R l l' := by
  induction l with
  | nil => exact ⟨[], .nil⟩
  | cons a l ih =>
    obtain ⟨⟨b, hb⟩, hl⟩ := List.forall_mem_cons.mp h
    obtain ⟨l', hl'⟩ := ih hl
    exact ⟨b :: l', .cons hb hl'⟩

end SideBySide

/-! ## One more name -/

theorem nodup_append_singleton {l : List α} {a : α} : (l ++ [a]).Nodup ↔ l.Nodup ∧ a ∉ l := by
  rw [← List.concat_eq_append, List.nodup_concat, and_comm]

theorem nodup_map_append_singleton {name : α → β} {l : List α} {a : α}
    (h : (l.map name).Nodup) (ha : name a ∉ l.map name) : ((l ++ [a]).map name).Nodup := by
  rw [List.map_append]
  exact nodup_append_singleton.mpr ⟨h, ha⟩

/-! ## Counts -/

/-- One element that satisfies only the weaker of two conditions makes its count larger. -/
theorem countP_lt_countP {p q : α → Bool} {l : List α} {a : α} (ha : a ∈ l)
    (himp : ∀ b ∈ l, p b = true → q b = true) (hp : p a = false) (hq : q a = true) :
    l.countP p < l.countP q := by
  obtain ⟨before, after, rfl⟩ := List.append_of_mem ha
  obtain ⟨hbefore, hafter⟩ := List.forall_mem_append.mp himp
  have hless : before.countP p ≤ before.countP q := List.countP_mono_left hbefore
  have hrest : after.countP p ≤ after.countP q :=
    List.countP_mono_left (List.forall_mem_cons.mp hafter).2
  rw [List.countP_append, List.countP_append, List.countP_cons_of_pos hq,
    List.countP_cons_of_neg (Bool.eq_false_iff.mp hp)]
  omega

end ApiGraph
