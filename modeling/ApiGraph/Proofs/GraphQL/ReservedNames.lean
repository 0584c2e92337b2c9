import ApiGraph.GraphQL.Name
import ApiGraph.GraphQL.Validation
import Mathlib

/-!
# Names that begin with two underscores

A name is made out of a text by putting its words together, and an underscore for every character
that is foreign to names.  Underscores of the text itself stand between words, and none of them is
left.  One that is put before a digit has the digit behind it.  So a name begins with two
underscores exactly if two foreign characters are the first ones of words.

* `joinWords_alphanum`: casing keeps apart what is foreign and what is not.
* `isReserved_fieldName`: the texts that such a name is made out of.
* `reserved_violation_iff`: when the check of a schema finds such a name before anything else.
-/

namespace ApiGraph.Text

theorem isAlphanum_toUpper (c : Char) : c.toUpper.isAlphanum = c.isAlphanum := by
  cases hlower : c.isLower with
  | false => rw [Char.toUpper_eq_of_not_isLower (Bool.eq_false_iff.mp hlower)]
  | true =>
    have halpha : c.isAlpha = true := by rw [Char.isAlpha, hlower, Bool.or_true]
    rw [Char.isAlphanum, Char.isAlphanum, Char.isAlpha_toUpper_eq_isAlpha, halpha, Bool.true_or,
      Bool.true_or]

theorem isAlphanum_toLower (c : Char) : c.toLower.isAlphanum = c.isAlphanum := by
  cases hupper : c.isUpper with
  | false => rw [Char.toLower_eq_of_not_isUpper (Bool.eq_false_iff.mp hupper)]
  | true =>
    have halpha : c.isAlpha = true := by rw [Char.isAlpha, hupper, Bool.true_or]
    rw [Char.isAlphanum, Char.isAlphanum, Char.isAlpha_toLower_eq_isAlpha, halpha, Bool.true_or,
      Bool.true_or]

/-- The characters of words come one by one, and foreign ones remain foreign. -/
theorem joinWords_alphanum (start : Bool) (last : Char) (found : Bool) (cs : List Char) :
    (joinWords start last found cs).map Char.isAlphanum =
      (cs.filter isWordChar).map Char.isAlphanum := by
  induction cs generalizing start last found with
  | nil => rfl
  | cons c r ih =>
    rw [joinWords]
    cases hword : isWordChar c with
    | false =>
      rw [List.filter_cons_of_neg (Bool.eq_false_iff.mp hword)]
      exact ih ..
    | true =>
      rw [List.filter_cons_of_pos hword, List.map_cons, Bool.not_true, if_neg Bool.false_ne_true]
      split
      · rw [List.map_cons, ih]
      · split
        · rw [List.map_cons, ih, isAlphanum_toUpper]
        · rw [List.map_cons, ih, isAlphanum_toLower]

theorem filter_dropWhile_not {α : Type} (p : α → Bool) (l : List α) :
    (l.dropWhile fun a => !p a).filter p = l.filter p := by
  induction l with
  | nil => rfl
  | cons a r ih =>
    cases ha : p a with
    | false =>
      rw [List.dropWhile_cons_of_pos (by rw [ha]; rfl), ih,
        List.filter_cons_of_neg (Bool.eq_false_iff.mp ha)]
    | true => rw [List.dropWhile_cons_of_neg (by rw [ha]; exact Bool.false_ne_true)]

/-- What is dropped belongs to no word. -/
theorem filter_dropTrailing (cs : List Char) :
    (dropTrailing cs).filter isWordChar = cs.filter isWordChar := by
  rw [dropTrailing, List.filter_reverse, filter_dropWhile_not, ← List.filter_reverse,
    List.reverse_reverse]

end ApiGraph.Text

namespace ApiGraph.GraphQL

open ApiGraph.Text

/-! ## Names for texts -/

/-- Are the first two characters of words both foreign to names? -/
def beginsForeign (s : String) : Bool :=
  [false, false].isPrefixOf ((s.toList.filter isWordChar).map Char.isAlphanum)

theorem isReserved_eq (name : String) : isReserved name = ['_', '_'].isPrefixOf name.toList := by
  unfold isReserved
  split
  · rename_i hname
    rw [hname]
    rfl
  · rename_i hname
    refine (Bool.eq_false_iff.mpr fun hprefix => ?_).symm
    obtain ⟨rest, hrest⟩ := List.isPrefixOf_iff_prefix.mp hprefix
    exact hname rest hrest.symm

/-- An underscore stands in a name for what is foreign, and for underscores. -/
theorem underscore_beq_toNameChar (c : Char) : ('_' == toNameChar c) = !c.isAlphanum := by
  unfold toNameChar isNameChar
  cases hc : c.isAlphanum with
  | true =>
    rw [Bool.or_true, if_pos rfl, Bool.not_true, beq_eq_false_iff_ne]
    rintro rfl
    exact absurd hc (by decide)
  | false =>
    rw [Bool.or_false]
    split
    · rename_i heq
      rw [beq_iff_eq.mp heq]
      rfl
    · rfl

theorem isAlphanum_of_isDigit_toNameChar {c : Char} (h : (toNameChar c).isDigit = true) :
    c.isAlphanum = true := by
  cases hc : c.isAlphanum with
  | true => rfl
  | false =>
    have hunderscore := underscore_beq_toNameChar c
    rw [hc, Bool.not_false, beq_iff_eq] at hunderscore
    rw [← hunderscore] at h
    exact absurd h (by decide)

/-- A name that is made out of characters begins with two underscores if the first two of them are
foreign. -/
theorem isReserved_sanitize (cs : List Char) :
    isReserved (String.ofList (sanitize cs)) =
      [false, false].isPrefixOf (cs.map Char.isAlphanum) := by
  rw [isReserved_eq, String.toList_ofList, sanitize]
  cases cs with
  | nil => rfl
  | cons c r =>
    rw [List.map_cons, List.map_cons, guardStart]
    split
    · rename_i hdigit
      -- Behind the underscore that is put before a digit, there is the digit.
      have halphanum := isAlphanum_of_isDigit_toNameChar hdigit
      simp [List.isPrefixOf, underscore_beq_toNameChar, halphanum]
    · cases r with
      | nil => simp [List.isPrefixOf]
      | cons d r => simp [List.isPrefixOf, underscore_beq_toNameChar]

theorem isReserved_fieldName (s : String) : isReserved (fieldName s) = beginsForeign s := by
  rw [fieldName, isReserved_sanitize, camelCase, joinWords_alphanum, filter_dropTrailing]
  rfl

/-- Behind a text, another one that begins with a letter changes nothing. -/
theorem beginsForeign_append (s : String) {t : String}
    (h : ((t.toList.filter isWordChar).map Char.isAlphanum).head? = some true) :
    beginsForeign (s ++ t) = beginsForeign s := by
  obtain ⟨rest, hrest⟩ := List.head?_eq_some_iff.mp h
  unfold beginsForeign
  rw [String.toList_append, List.filter_append, List.map_append, hrest]
  rcases (s.toList.filter isWordChar).map Char.isAlphanum with _ | ⟨c, _ | ⟨d, r⟩⟩ <;>
    simp [List.isPrefixOf]

/-! ## The check of a schema -/

/-- The complaint is about the name of a field or of an argument. -/
def Violation.IsReserved : Violation → Prop
  | .reservedField _ _ | .reservedArgument _ _ _ => True
  | .typeExists _ | .selfReference _ => False

/-- A field or an argument of the object type has a name that begins with two underscores. -/
def ObjectType.HasReserved (o : ObjectType) : Prop :=
  ∃ f ∈ o.fields, isReserved f.name = true ∨ ∃ a ∈ f.arguments, isReserved a.name = true

/-- A field of the input object has such a name. -/
def InputObject.HasReserved (i : InputObject) : Prop :=
  ∃ f ∈ i.fields, isReserved f.name = true

namespace Violation

theorem isReserved_of_ofFieldName? {type field : String} {v : Violation}
    (h : ofFieldName? type field = some v) : v.IsReserved ∧ isReserved field = true := by
  unfold ofFieldName? at h
  split at h
  · rename_i hreserved
    cases h
    exact ⟨trivial, hreserved⟩
  · cases h

theorem isReserved_of_ofArgumentName? {type field argument : String} {v : Violation}
    (h : ofArgumentName? type field argument = some v) :
    v.IsReserved ∧ isReserved argument = true := by
  unfold ofArgumentName? at h
  split at h
  · rename_i hreserved
    cases h
    exact ⟨trivial, hreserved⟩
  · cases h

/-- The check complains about an object type just if one of its names begins with underscores. -/
theorem inObject?_eq_some {o : ObjectType} {v : Violation} (h : inObject? o = some v) :
    v.IsReserved ∧ o.HasReserved := by
  obtain ⟨f, hf, h⟩ := List.exists_of_findSome?_eq_some h
  rcases Option.or_eq_some_iff.mp h with h | ⟨-, h⟩
  · obtain ⟨hv, hreserved⟩ := isReserved_of_ofFieldName? h
    exact ⟨hv, f, hf, Or.inl hreserved⟩
  · obtain ⟨a, ha, h⟩ := List.exists_of_findSome?_eq_some h
    obtain ⟨hv, hreserved⟩ := isReserved_of_ofArgumentName? h
    exact ⟨hv, f, hf, Or.inr ⟨a, ha, hreserved⟩⟩

theorem inObject?_ne_none {o : ObjectType} (h : o.HasReserved) : inObject? o ≠ none := by
  obtain ⟨f, hf, hreserved⟩ := h
  intro hnone
  have hfield := Option.or_eq_none_iff.mp (List.findSome?_eq_none_iff.mp hnone f hf)
  rcases hreserved with hreserved | ⟨a, ha, hreserved⟩
  · have hname := hfield.1
    rw [ofFieldName?, if_pos hreserved] at hname
    cases hname
  · have hname := List.findSome?_eq_none_iff.mp hfield.2 a ha
    rw [ofArgumentName?, if_pos hreserved] at hname
    cases hname

variable {s : Schema} {i : InputObject}

/-- An input object that does not refer to itself is only complained about for its names. -/
theorem inInput?_eq_some {v : Violation} (h : inInput? s i = some v)
    (hself : s.requiresItself i.name = false) : v.IsReserved := by
  rcases Option.or_eq_some_iff.mp h with h | ⟨-, h⟩
  · obtain ⟨f, -, h⟩ := List.exists_of_findSome?_eq_some h
    exact (isReserved_of_ofFieldName? h).1
  · rw [hself] at h
    cases h

theorem hasReserved_of_inInput? {v : Violation} (h : inInput? s i = some v) (hv : v.IsReserved) :
    i.HasReserved := by
  rcases Option.or_eq_some_iff.mp h with h | ⟨-, h⟩
  · obtain ⟨f, hf, h⟩ := List.exists_of_findSome?_eq_some h
    exact ⟨f, hf, (isReserved_of_ofFieldName? h).2⟩
  · split at h
    · cases h
      exact hv.elim
    · cases h

/-- Names come first, so the complaint is about one of them. -/
theorem exists_inInput?_of_hasReserved (h : i.HasReserved) :
    ∃ v, v.IsReserved ∧ inInput? s i = some v := by
  obtain ⟨f, hf, hreserved⟩ := h
  cases hfirst : i.fields.findSome? fun f => ofFieldName? i.name f.name with
  | none =>
    have hname := List.findSome?_eq_none_iff.mp hfirst f hf
    rw [ofFieldName?, if_pos hreserved] at hname
    cases hname
  | some v =>
    obtain ⟨_, -, hfield⟩ := List.exists_of_findSome?_eq_some hfirst
    exact ⟨v, (isReserved_of_ofFieldName? hfield).1, Option.or_eq_some_iff.mpr (Or.inl hfirst)⟩

/-- The first complaint about input objects is about a name if one of them has such a name, and
none before it refers to itself. -/
theorem inputs_reserved_iff :
    (∃ v : Violation, v.IsReserved ∧ s.inputs.findSome? (inInput? s) = some v) ↔
      ∃ before i after, s.inputs = before ++ i :: after ∧
        (∀ k ∈ before, s.requiresItself k.name = false) ∧ i.HasReserved := by
  constructor
  · rintro ⟨v, hv, h⟩
    obtain ⟨before, i, after, heq, hi, hbefore⟩ := List.findSome?_eq_some_iff.mp h
    refine ⟨before, i, after, heq, fun k hk => ?_, hasReserved_of_inInput? hi hv⟩
    have hself := (Option.or_eq_none_iff.mp (hbefore k hk)).2
    cases hrequires : s.requiresItself k.name with
    | false => rfl
    | true =>
      rw [hrequires, if_pos rfl] at hself
      cases hself
  · rintro ⟨before, i, after, heq, hbefore, hi⟩
    rw [heq, List.findSome?_append]
    cases hfirst : before.findSome? (inInput? s) with
    | some v =>
      obtain ⟨k, hk, h⟩ := List.exists_of_findSome?_eq_some hfirst
      exact ⟨v, inInput?_eq_some h (hbefore k hk), rfl⟩
    | none =>
      obtain ⟨v, hv, h⟩ := exists_inInput?_of_hasReserved (s := s) hi
      refine ⟨v, hv, ?_⟩
      rw [Option.none_or, List.findSome?_cons, h]

end Violation

/-- No type is called like a built-in scalar, and a name begins with two underscores: one of an
object type, or one of an input object with none before it that refers to itself. -/
theorem reserved_violation_iff {s : Schema} :
    (∃ v : Violation, v.IsReserved ∧ s.violation? = some v) ↔
      (∀ name ∈ s.typeNames, name ∉ builtinScalars) ∧
        ((∃ o ∈ s.objects, o.HasReserved) ∨
          ∃ before i after, s.inputs = before ++ i :: after ∧
            (∀ k ∈ before, s.requiresItself k.name = false) ∧ i.HasReserved) := by
  constructor
  · rintro ⟨v, hv, h⟩
    rcases Option.or_eq_some_iff.mp h with h | ⟨hnames, h⟩
    · obtain ⟨name, -, hname⟩ := List.exists_of_findSome?_eq_some h
      unfold Violation.inTypeName? at hname
      split at hname
      · cases hname
        exact hv.elim
      · cases hname
    refine ⟨fun name hmem hbuiltin => ?_, ?_⟩
    · have hnone := List.findSome?_eq_none_iff.mp hnames name hmem
      rw [Violation.inTypeName?, if_pos (List.contains_iff_mem.mpr hbuiltin)] at hnone
      cases hnone
    rcases Option.or_eq_some_iff.mp h with h | ⟨-, h⟩
    · obtain ⟨o, ho, h⟩ := List.exists_of_findSome?_eq_some h
      exact Or.inl ⟨o, ho, (Violation.inObject?_eq_some h).2⟩
    · exact Or.inr (Violation.inputs_reserved_iff.mp ⟨v, hv, h⟩)
  · rintro ⟨hnames, h⟩
    have hfirst : s.typeNames.findSome? Violation.inTypeName? = none := by
      refine List.findSome?_eq_none_iff.mpr fun name hmem => if_neg fun hbuiltin => ?_
      exact hnames name hmem (List.contains_iff_mem.mp hbuiltin)
    rw [Schema.violation?, hfirst, Option.none_or]
    cases hobjects : s.objects.findSome? Violation.inObject? with
    | some v =>
      obtain ⟨o, -, ho⟩ := List.exists_of_findSome?_eq_some hobjects
      exact ⟨v, (Violation.inObject?_eq_some ho).1, rfl⟩
    | none =>
      rcases h with ⟨o, ho, hreserved⟩ | h
      · exact absurd (List.findSome?_eq_none_iff.mp hobjects o ho)
          (Violation.inObject?_ne_none hreserved)
      · exact Violation.inputs_reserved_iff.mpr h

end ApiGraph.GraphQL
