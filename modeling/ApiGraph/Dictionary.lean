/-!
# Dictionaries in order of first insertion

A dictionary is a list of pairs of a key and a value.  Putting a value under a key that is already
there replaces the value and keeps the place; a new key goes to the end.  A dictionary that is
built by `put` alone has every key once.

Main statements: `get?_put` and `get?_erase`, what a dictionary holds after an insertion and after a
key was taken away, and `keys_put`, the keys after an insertion.
-/

namespace ApiGraph

/-- Pairs of keys and values, in order. -/
abbrev Dictionary (α : Type) := List (String × α)

namespace Dictionary

variable {α : Type}

/-- The value under the key, if there is one. -/
def get? (d : Dictionary α) (key : String) : Option α :=
  match d with
  | [] => none
  | (k, v) :: r => if k == key then some v else get? r key

/-- Put a value under the key. -/
def put (d : Dictionary α) (key : String) (value : α) : Dictionary α :=
  match d with
  | [] => [(key, value)]
  | (k, v) :: r => if k == key then (k, value) :: r else (k, v) :: put r key value

/-- Put pairs one after the other. -/
def putAll (d : Dictionary α) (pairs : List (String × α)) : Dictionary α :=
  pairs.foldl (fun d p => put d p.1 p.2) d

/-- Put pairs one after the other into an empty dictionary. -/
def ofPairs (pairs : List (String × α)) : Dictionary α :=
  putAll [] pairs

/-- Take the key away. -/
def erase (d : Dictionary α) (key : String) : Dictionary α :=
  d.filter fun p => p.1 != key

/-- The keys, in order. -/
def keys (d : Dictionary α) : List String :=
  d.map Prod.fst

theorem get?_put (d : Dictionary α) (key : String) (value : α) (k : String) :
    get? (put d key value) k = if key = k then some value else get? d k := by
  induction d with
  | nil => by_cases h : key = k <;> simp [put, get?, h]
  | cons p r ih =>
    obtain ⟨k', v⟩ := p
    by_cases hk : k' = key
    · subst hk
      by_cases h : k' = k <;> simp [put, get?, h]
    · by_cases h : k' = k
      · subst h
        simp [put, get?, hk, Ne.symm hk]
      · simp [put, get?, hk, h, ih]

theorem get?_erase (d : Dictionary α) (key k : String) :
    get? (erase d key) k = if key = k then none else get? d k := by
  induction d with
  | nil => simp [erase, get?]
  | cons p r ih =>
    obtain ⟨k', v⟩ := p
    by_cases hk : k' = key
    · subst hk
      have herase : erase ((k', v) :: r) k' = erase r k' := List.filter_cons_of_neg (by simp)
      rw [herase, ih]
      by_cases h : k' = k <;> simp [get?, h]
    · have herase : erase ((k', v) :: r) key = (k', v) :: erase r key :=
        List.filter_cons_of_pos (by simpa using hk)
      rw [herase, get?, ih]
      by_cases h : k' = k
      · subst h
        simp [get?, Ne.symm hk]
      · simp [get?, h]

theorem keys_put (d : Dictionary α) (key : String) (value : α) :
    keys (put d key value) = if key ∈ keys d then keys d else keys d ++ [key] := by
  induction d with
  | nil => simp [put, keys]
  | cons p r ih =>
    obtain ⟨k', v⟩ := p
    by_cases hk : k' = key
    · subst hk
      simp [put, keys]
    · have ih' : keys (put r key value) = if key ∈ keys r then keys r else keys r ++ [key] := ih
      simp only [put, beq_iff_eq, hk, if_false, keys, List.map_cons, List.mem_cons]
      have hk' : ¬ key = k' := fun h => hk h.symm
      simp only [keys] at ih'
      rw [ih']
      by_cases hm : key ∈ List.map Prod.fst r <;> simp [hm, hk']

end Dictionary

end ApiGraph
