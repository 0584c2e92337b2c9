import Mathlib.Data.List.Basic
import ApiGraph.Engine.Configuration.Reader

/-!
# The three readings of an attribute value

An attribute value does not say what it is.  It is read as a string, as arguments and as header
fields, and the first reading that accepts it counts.

Each reading asks for a shape of its own: a text; a list, alone in a list or under the only key
`fields` of an object; an object of texts.  No tree has two of these shapes, so the order of the
readings does not matter.

* `eq_of_arguments?_isSome`, `headers?_isSome_iff`: what a reading accepts.
* `length_accepted_le_one`: at most one reading accepts a tree.
* `firstFit?_eq_of_perm`: any order of the readings gives the same value.
* `readings_exclude_each_other`: both together, and an object with a list under `fields` and any
  further key is no value at all.
-/

namespace ApiGraph.Engine.Reader

open ApiGraph.Json (Tree)

/-- The readings of an attribute value, in the order in which they are tried. -/
def readings : List (Tree → Option AttributeValue) :=
  [fun t => (string? t).map .string, fun t => (arguments? t).map .arguments,
    fun t => (headers? t).map .headers]

/-- All that a tree is read as. -/
def accepted (order : List (Tree → Option AttributeValue)) (t : Tree) : List AttributeValue :=
  order.filterMap fun read => read t

variable {t : Tree} {members : List (Option String × Tree)}

/-! ## The shape that a reading asks for -/

theorem header?_isSome_iff {m : Option String × Tree} :
    (header? m).isSome ↔ ∃ k v, m = (some k, .string (some v)) := by
  constructor
  · unfold header?
    split
    · exact fun _ => ⟨_, _, rfl⟩
    · exact fun h => absurd h Bool.false_ne_true
  · rintro ⟨k, v, rfl⟩
    rfl

theorem mapM_isSome_iff {α β : Type} {f : α → Option β} {as : List α} :
    (as.mapM f).isSome ↔ ∀ a ∈ as, (f a).isSome := by
  induction as with
  | nil => simp
  | cons a as ih =>
    rw [List.forall_mem_cons, ← ih, List.mapM_cons]
    cases f a <;> cases as.mapM f <;> simp

/-- Header fields are the texts of an object. -/
theorem headers?_isSome_iff :
    (headers? t).isSome ↔
      ∃ members, t = .object members ∧ ∀ m ∈ members, ∃ k v, m = (some k, .string (some v)) := by
  cases t with
  | object members => simp [headers?, mapM_isSome_iff, header?_isSome_iff]
  | _ => simp [headers?]

/-- The only field of a record stands alone in an object or in a list. -/
theorem eq_of_onlyFields? {key : String} {u : Tree} (h : onlyFields? [key] t = some [some u]) :
    t = .object [(some key, u)] ∨ t = .array [u] := by
  cases t with
  | object members =>
    simp only [onlyFields?, fields?, Option.ite_none_right_eq_some, List.any_cons, List.any_nil,
      Bool.or_false, List.mapM_cons, List.mapM_nil] at h
    obtain ⟨hkeys, -, h⟩ := h
    obtain ⟨o, ho, h⟩ := Option.bind_eq_some_iff.mp h
    obtain rfl := (List.cons.inj (Option.some.inj h)).1
    -- no other key stands in the object, so the filter of the reader leaves every member
    rw [single?, List.filter_eq_self.mpr (List.all_eq_true.mp hkeys)] at ho
    split at ho
    · cases ho
    · cases ho
      exact Or.inl (by simpa using hkeys)
    · cases ho
  | array items =>
    simp only [onlyFields?, fields?, Option.ite_none_right_eq_some, Option.some.injEq] at h
    obtain ⟨hlength, h⟩ := h
    rcases items with _ | ⟨v, _ | ⟨w, items⟩⟩
    · simp at h
    · simpa using h
    · simp at hlength
  | _ => simp [onlyFields?, fields?] at h

/-- Arguments are a list, alone in a list or under the only key of an object. -/
theorem eq_of_arguments?_isSome (h : (arguments? t).isSome) :
    ∃ items, t = .object [(some "fields", .array items)] ∨ t = .array [.array items] := by
  obtain ⟨a, ha⟩ := Option.isSome_iff_exists.mp h
  obtain ⟨fields, hfields, ha⟩ := Option.bind_eq_some_iff.mp ha
  rcases fields with _ | ⟨o, _ | ⟨_, _⟩⟩
  · cases ha
  · obtain ⟨_, ho, -⟩ := Option.bind_eq_some_iff.mp ha
    obtain ⟨u, rfl, hu⟩ := Option.bind_eq_some_iff.mp ho
    cases u with
    | array items => exact ⟨items, eq_of_onlyFields? hfields⟩
    | _ => cases hu
  · cases ha

/-! ## No tree has two shapes -/

theorem string?_eq_none_of_arguments? (h : (arguments? t).isSome) : string? t = none := by
  obtain ⟨items, rfl | rfl⟩ := eq_of_arguments?_isSome h <;> rfl

theorem string?_eq_none_of_headers? (h : (headers? t).isSome) : string? t = none := by
  obtain ⟨members, rfl, -⟩ := headers?_isSome_iff.mp h
  rfl

/-- Arguments are in a list under their key, and a header field is no list. -/
theorem arguments?_eq_none_of_headers? (h : (headers? t).isSome) : arguments? t = none := by
  obtain ⟨members, rfl, hmembers⟩ := headers?_isSome_iff.mp h
  refine Option.not_isSome_iff_eq_none.mp fun harguments => ?_
  obtain ⟨items, hobject | hlist⟩ := eq_of_arguments?_isSome harguments
  · obtain rfl := Tree.object.inj hobject
    obtain ⟨k, v, hm⟩ := hmembers _ List.mem_cons_self
    cases (Prod.mk.inj hm).2
  · cases hlist

theorem length_accepted_le_one (t : Tree) : (accepted readings t).length ≤ 1 := by
  rcases hheaders : headers? t with _ | h
  · rcases harguments : arguments? t with _ | a
    · cases hstring : string? t <;> simp [accepted, readings, *]
    · have hstring := string?_eq_none_of_arguments? (Option.isSome_of_eq_some harguments)
      simp [accepted, readings, *]
  · have hsome := Option.isSome_of_eq_some hheaders
    have hstring := string?_eq_none_of_headers? hsome
    have harguments := arguments?_eq_none_of_headers? hsome
    simp [accepted, readings, *]

/-! ## The order of the readings -/

theorem firstFit?_eq_head? (t : Tree) : firstFit? t = (accepted readings t).head? := by
  rw [accepted, List.head?_filterMap]
  simp only [firstFit?, readings, List.findSome?_cons, List.findSome?_nil]
  cases string? t <;> cases arguments? t <;> cases headers? t <;> rfl

/-- A list of at most one item has no other order. -/
theorem perm_eq_of_length_le_one {α : Type} {as bs : List α} (h : as.Perm bs)
    (hlength : bs.length ≤ 1) : as = bs := by
  rcases bs with _ | ⟨b, _ | ⟨c, bs⟩⟩
  · exact h.eq_nil
  · exact List.perm_singleton.mp h
  · simp at hlength

theorem firstFit?_eq_of_perm {order : List (Tree → Option AttributeValue)}
    (h : order.Perm readings) (t : Tree) : order.findSome? (fun read => read t) = firstFit? t := by
  have hsame : accepted order t = accepted readings t :=
    perm_eq_of_length_le_one (h.filterMap _) (length_accepted_le_one t)
  rw [firstFit?_eq_head?, ← hsame, accepted, List.head?_filterMap]

/-! ## A list beside another key -/

section ListBesideKey

variable {before after : List (Option String × Tree)} {items : List Tree}

/-- Arguments have no other key, not even their own once more. -/
theorem arguments?_of_list_beside (hmore : before ++ after ≠ []) :
    arguments? (.object (before ++ (some "fields", .array items) :: after)) = none := by
  refine Option.not_isSome_iff_eq_none.mp fun h => hmore ?_
  obtain ⟨items', hobject | hlist⟩ := eq_of_arguments?_isSome h
  · have hlength := congrArg List.length (Tree.object.inj hobject)
    simp only [List.length_append, List.length_cons, List.length_nil] at hlength
    exact List.eq_nil_of_length_eq_zero (by rw [List.length_append]; omega)
  · cases hlist

theorem headers?_of_list :
    headers? (.object (before ++ (some "fields", .array items) :: after)) = none := by
  refine Option.not_isSome_iff_eq_none.mp fun h => ?_
  obtain ⟨members, hobject, hmembers⟩ := headers?_isSome_iff.mp h
  obtain rfl := Tree.object.inj hobject
  obtain ⟨k, v, hm⟩ := hmembers (some "fields", .array items) (by simp)
  cases (Prod.mk.inj hm).2

theorem accepted_of_list_beside (hmore : before ++ after ≠ []) :
    accepted readings (.object (before ++ (some "fields", .array items) :: after)) = [] := by
  simp [accepted, readings, string?, arguments?_of_list_beside hmore, headers?_of_list]

end ListBesideKey

/-- A tree is read as a string, as arguments or as header fields, whatever is tried first.  What is
read as header fields is not read as arguments, and an object that holds a list under `fields` and
anything else, the same key included, is not read at all. -/
theorem readings_exclude_each_other (t : Tree) :
    (accepted readings t).length ≤ 1 ∧
      (∀ order : List (Tree → Option AttributeValue), order.Perm readings →
        order.findSome? (fun read => read t) = firstFit? t) ∧
      ((headers? t).isSome → arguments? t = none) ∧
      ∀ (before after : List (Option String × Tree)) (items : List Tree),
        t = .object (before ++ (some "fields", .array items) :: after) → before ++ after ≠ [] →
          accepted readings t = [] ∧ ∀ around, attributeValue? around t = none := by
  refine ⟨length_accepted_le_one t, fun _ horder => firstFit?_eq_of_perm horder t,
    arguments?_eq_none_of_headers?, ?_⟩
  rintro before after items rfl hmore
  have hnone :
      accepted readings (.object (before ++ (some "fields", .array items) :: after)) = [] :=
    accepted_of_list_beside hmore
  refine ⟨hnone, fun around => ?_⟩
  rw [attributeValue?, firstFit?_eq_head?, hnone, List.head?_nil, ite_self]

/-- A list under `fields` beside a text under `authorization` fits no reading in any order, while
two texts, one of them under `fields`, are header fields and no arguments. -/
theorem list_beside_text_rejected :
    let rejected : Tree :=
      .object [(some "fields", .array []), (some "authorization", .string (some "token"))]
    let headers : Tree := .object
      [(some "fields", .string (some "id")), (some "authorization", .string (some "token"))]
    accepted readings rejected = [] ∧
      readings.reverse.findSome? (fun read => read headers) = firstFit? headers ∧
      arguments? headers = none :=
  ⟨((readings_exclude_each_other _).2.2.2 [] [(some "authorization", .string (some "token"))] []
    rfl (List.cons_ne_nil _ _)).1,
    (readings_exclude_each_other _).2.1 _ readings.reverse_perm,
    (readings_exclude_each_other _).2.2.1 (headers?_isSome_iff.mpr
      ⟨_, rfl, List.forall_mem_cons.mpr ⟨⟨_, _, rfl⟩, List.forall_mem_singleton.mpr
        ⟨_, _, rfl⟩⟩⟩)⟩

end ApiGraph.Engine.Reader
