import ApiGraph.Dictionary
import Mathlib.Data.List.Nodup

/-!
# What dictionaries hold

An entry of a dictionary is the last one that was put under its key, at the place of the first.
What is built by `put` has every key once, and pairs with distinct keys are taken over as they are.

* `mem_put`, `mem_of_get?`, `get?_of_mem`: the entries.
* `nodup_keys_put`, `nodup_keys_erase`, `nodup_keys_ofPairs`: every key is there once.
* `ofPairs_eq_self`: pairs with distinct keys.
* `merges_iff`: what there is after all pairs were put, key by key and in order.
* `ofPairs_ofPairs_append`: pairs may be put in two goes.
-/

namespace ApiGraph

namespace Dictionary

variable {α : Type}

/-- What a dictionary holds after an insertion was put in or was there before. -/
theorem mem_put {d : Dictionary α} {key : String} {value : α}
    {e : String × α} (h : e ∈ d.put key value) : e = (key, value) ∨ e ∈ d := by
  induction d with
  | nil => exact Or.inl (List.mem_singleton.mp h)
  | cons p d ih =>
    obtain ⟨k, v⟩ := p
    rw [put] at h
    split at h
    · rename_i hk
      rw [beq_iff_eq.mp hk] at h
      rcases List.mem_cons.mp h with rfl | h
      · exact Or.inl rfl
      · exact Or.inr (List.mem_cons_of_mem _ h)
    · rcases List.mem_cons.mp h with rfl | h
      · exact Or.inr (List.mem_cons_self ..)
      · exact (ih h).imp_right (List.mem_cons_of_mem _)

theorem mem_of_get? {d : Dictionary α} {key : String} {value : α}
    (h : d.get? key = some value) : (key, value) ∈ d := by
  induction d with
  | nil => exact nomatch h
  | cons p d ih =>
    obtain ⟨k, v⟩ := p
    rw [get?] at h
    split at h
    · rename_i hk
      rw [← beq_iff_eq.mp hk, ← Option.some.inj h]
      exact List.mem_cons_self ..
    · exact List.mem_cons_of_mem _ (ih h)

theorem get?_of_mem {d : Dictionary α} (hnodup : d.keys.Nodup) {key : String}
    {value : α} (h : (key, value) ∈ d) : d.get? key = some value := by
  induction d with
  | nil => exact absurd h List.not_mem_nil
  | cons p d ih =>
    obtain ⟨k, v⟩ := p
    obtain ⟨hhead, htail⟩ := List.nodup_cons.mp hnodup
    rw [get?]
    rcases List.mem_cons.mp h with heq | h
    · obtain ⟨rfl, rfl⟩ := Prod.mk.inj heq
      exact if_pos (beq_self_eq_true key)
    · have hne : k ≠ key := fun heq => hhead (List.mem_map.mpr ⟨_, h, heq.symm⟩)
      rw [if_neg (by simpa using hne)]
      exact ih htail h

theorem nodup_keys_put {d : Dictionary α} (h : d.keys.Nodup) (key : String)
    (value : α) : (d.put key value).keys.Nodup := by
  rw [keys_put]
  split
  · exact h
  · rename_i hnew
    exact h.append (List.nodup_singleton key) (List.disjoint_singleton.mpr hnew)

theorem nodup_keys_erase {d : Dictionary α} (h : d.keys.Nodup)
    (key : String) : (d.erase key).keys.Nodup :=
  h.sublist (List.filter_sublist.map Prod.fst)

theorem nodup_keys_ofPairs (ps : List (String × α)) : (ofPairs ps).keys.Nodup := by
  have hrun : ∀ (ps : List (String × α)) {d : Dictionary α}, d.keys.Nodup →
      (d.putAll ps).keys.Nodup := by
    intro ps
    induction ps with
    | nil => exact fun h => h
    | cons p ps ih => exact fun h => ih (nodup_keys_put h p.1 p.2)
  exact hrun ps List.nodup_nil

theorem put_of_not_mem {d : Dictionary α} {key : String} (h : key ∉ d.keys) (value : α) :
    d.put key value = d ++ [(key, value)] := by
  induction d with
  | nil => rfl
  | cons p d ih =>
    obtain ⟨k, v⟩ := p
    obtain ⟨hne, hrest⟩ := not_or.mp (mt List.mem_cons.mpr h)
    rw [put, if_neg (by simpa using Ne.symm hne), ih hrest, List.cons_append]

/-- Pairs with distinct keys are taken over as they are. -/
theorem ofPairs_eq_self {ps : List (String × α)} (h : (keys ps).Nodup) : ofPairs ps = ps := by
  have hrun : ∀ (ps d : Dictionary α), (keys (d ++ ps)).Nodup → d.putAll ps = d ++ ps := by
    intro ps
    induction ps with
    | nil => exact fun d _ => (List.append_nil d).symm
    | cons p ps ih =>
      intro d h
      have hnew : p.1 ∉ d.keys := by
        rw [keys, List.map_append] at h
        exact fun hmem => List.disjoint_of_nodup_append h hmem List.mem_cons_self
      have hsplit : d ++ p :: ps = (d ++ [p]) ++ ps := List.append_cons d p ps
      rw [hsplit] at h ⊢
      rw [← ih (d ++ [p]) h, ← put_of_not_mem hnew p.2]
      rfl
  exact hrun ps [] h

/-! ## Pairs that are put one after the other -/

theorem mem_keys_iff {d : Dictionary α} {key : String} :
    key ∈ d.keys ↔ ∃ value, get? d key = some value := by
  induction d with
  | nil => simp [keys, get?]
  | cons p d ih =>
    obtain ⟨k, v⟩ := p
    by_cases h : k = key
    · simp [keys, get?, h]
    · have hne : ¬ key = k := fun heq => h heq.symm
      simp only [keys, List.map_cons, List.mem_cons, hne, false_or, get?, beq_iff_eq, h, if_false]
      exact ih

theorem get?_of_not_mem {d : Dictionary α} {key : String} (h : key ∉ d.keys) :
    d.get? key = none :=
  Option.eq_none_iff_forall_ne_some.mpr fun value hvalue => h (mem_keys_iff.mpr ⟨value, hvalue⟩)

theorem mem_keys_reverse {d : Dictionary α} {key : String} :
    key ∈ keys d.reverse ↔ key ∈ d.keys := by
  rw [keys, List.map_reverse, List.mem_reverse]
  rfl

/-- Two dictionaries with the same keys in the same order and with the same values are equal. -/
theorem eq_of_get?_eq {d d' : Dictionary α} (hnodup : d.keys.Nodup) (hkeys : d.keys = d'.keys)
    (h : ∀ key, d.get? key = d'.get? key) : d = d' := by
  induction d generalizing d' with
  | nil => exact (List.map_eq_nil_iff.mp hkeys.symm).symm
  | cons p d ih =>
    obtain ⟨k, v⟩ := p
    obtain _ | ⟨⟨k', v'⟩, d'⟩ := d'
    · exact nomatch hkeys
    obtain ⟨rfl, htail⟩ := List.cons.inj hkeys
    obtain ⟨hhead, hrest⟩ := List.nodup_cons.mp hnodup
    have hvalue : v = v' := by simpa [get?] using h k
    refine congrArg₂ List.cons (Prod.ext rfl hvalue) (ih hrest htail fun key => ?_)
    by_cases heq : k = key
    · have hhead' : k ∉ keys d' := by
        rw [keys, ← htail]
        exact hhead
      rw [← heq, get?_of_not_mem hhead, get?_of_not_mem hhead']
    · simpa [get?, heq] using h key

/-- What is left of pairs: the keys in the order in which they come first, so that each is there
once, with the value that comes last, which is the first one from the end. -/
structure Merges (pairs : List (String × α)) (d : Dictionary α) : Prop where
  order : d.keys.Pairwise fun k k' => (keys pairs).idxOf k < (keys pairs).idxOf k'
  last : ∀ key, get? d key = get? pairs.reverse key

namespace Merges

variable {pairs : List (String × α)} {d d' : Dictionary α}

theorem nodup (h : Merges pairs d) : d.keys.Nodup := by
  refine h.order.imp fun hlt heq => ?_
  rw [heq] at hlt
  exact Nat.lt_irrefl _ hlt

theorem mem_keys (h : Merges pairs d) {key : String} : key ∈ d.keys ↔ key ∈ keys pairs := by
  rw [mem_keys_iff, h.last key, ← mem_keys_iff, mem_keys_reverse]

/-- One more pair. -/
theorem put (h : Merges pairs d) (key : String) (value : α) :
    Merges (pairs ++ [(key, value)]) (d.put key value) where
  order := by
    have hpairs : keys (pairs ++ [(key, value)]) = keys pairs ++ [key] := List.map_append
    have hold : ∀ k ∈ d.keys, (keys pairs ++ [key]).idxOf k = (keys pairs).idxOf k :=
      fun k hk => List.idxOf_append_of_mem (h.mem_keys.mp hk)
    have hbefore : d.keys.Pairwise fun k k' =>
        (keys pairs ++ [key]).idxOf k < (keys pairs ++ [key]).idxOf k' := by
      refine h.order.imp_of_mem fun {k k'} hk hk' hlt => ?_
      rwa [hold k hk, hold k' hk']
    rw [hpairs, keys_put]
    split
    · exact hbefore
    · rename_i hnew
      refine List.pairwise_append.mpr ⟨hbefore, List.pairwise_singleton .., ?_⟩
      intro k hk k' hk'
      obtain rfl := List.mem_singleton.mp hk'
      rw [hold k hk, List.idxOf_append_of_notMem fun hmem => hnew (h.mem_keys.mpr hmem)]
      exact Nat.lt_add_right _ (List.idxOf_lt_length_of_mem (h.mem_keys.mp hk))
  last := by
    intro k
    rw [get?_put, List.reverse_append, List.reverse_singleton, List.singleton_append, get?,
      h.last k]
    simp only [beq_iff_eq]

/-- More pairs, one after the other. -/
theorem putAll (h : Merges pairs d) (more : List (String × α)) :
    Merges (pairs ++ more) (d.putAll more) := by
  induction more generalizing pairs d with
  | nil => rwa [List.append_nil]
  | cons p more ih =>
    rw [List.append_cons]
    exact ih (h.put p.1 p.2)

/-- Nothing else is left of the pairs. -/
theorem unique (h : Merges pairs d) (h' : Merges pairs d') : d = d' := by
  have hperm : d.keys.Perm d'.keys :=
    (List.perm_ext_iff_of_nodup h.nodup h'.nodup).mpr fun k => h.mem_keys.trans h'.mem_keys.symm
  have hkeys : d.keys = d'.keys :=
    hperm.eq_of_pairwise (fun k k' _ _ hlt hlt' => absurd hlt' (Nat.lt_asymm hlt)) h.order h'.order
  exact eq_of_get?_eq h.nodup hkeys fun key => (h.last key).trans (h'.last key).symm

end Merges

theorem merges_ofPairs (pairs : List (String × α)) : Merges pairs (ofPairs pairs) := by
  have hnone : Merges ([] : List (String × α)) [] := ⟨List.Pairwise.nil, fun _ => rfl⟩
  exact hnone.putAll pairs

theorem merges_iff {pairs : List (String × α)} {d : Dictionary α} :
    Merges pairs d ↔ d = ofPairs pairs := by
  constructor
  · exact fun h => h.unique (merges_ofPairs pairs)
  · rintro rfl
    exact merges_ofPairs pairs

example : Merges [("Authorization", "a"), ("X-Tenant", "pets"), ("Authorization", "b")]
    [("Authorization", "b"), ("X-Tenant", "pets")] :=
  merges_iff.mpr rfl

theorem ofPairs_ofPairs (pairs : List (String × α)) : ofPairs (ofPairs pairs) = ofPairs pairs :=
  ofPairs_eq_self (nodup_keys_ofPairs pairs)

/-- The first pairs may be put before the others come. -/
theorem ofPairs_ofPairs_append (first rest : List (String × α)) :
    ofPairs (ofPairs first ++ rest) = ofPairs (first ++ rest) := by
  have happend : ∀ pairs : List (String × α),
      ofPairs (pairs ++ rest) = putAll (ofPairs pairs) rest :=
    fun pairs => List.foldl_append
  rw [happend, happend, ofPairs_ofPairs]

theorem ofPairs_isEmpty (pairs : List (String × α)) : (ofPairs pairs).isEmpty = pairs.isEmpty := by
  cases pairs with
  | nil => rfl
  | cons p pairs =>
    have hmem : p.1 ∈ (ofPairs (p :: pairs)).keys :=
      (merges_ofPairs _).mem_keys.mpr List.mem_cons_self
    rw [List.isEmpty_cons, List.isEmpty_eq_false_iff]
    intro hnil
    rw [hnil] at hmem
    exact absurd hmem List.not_mem_nil

end Dictionary

end ApiGraph
