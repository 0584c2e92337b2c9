import ApiGraph.GraphQL.Name

/-!
# The grammar of names

A name of the grammar is a letter or an underscore, and behind it letters, digits and underscores,
all of them of ASCII (`InGrammar`).  `isName` decides whether a text is one.

Names are made out of any text.  The converter that joins the words keeps letters and digits of all
scripts, it may leave nothing at all, and it may put a digit first.  So nothing is asked of it:
foreign characters are replaced one by one, and the start is looked at when no character changes any
more.  A foreign digit at the start is an underscore by then, and does not get another one.

* `inGrammar_iff`: the grammar is decided by `isName`.
* `sanitize_eq_self_iff`: what is a name already stays as it is.
-/

namespace ApiGraph.GraphQL

/-- A name of the grammar. -/
structure InGrammar (s : String) : Prop where
  ne_empty : s ≠ ""
  chars : ∀ c ∈ s.toList,
    c = '_' ∨ ('A' ≤ c ∧ c ≤ 'Z') ∨ ('a' ≤ c ∧ c ≤ 'z') ∨ ('0' ≤ c ∧ c ≤ '9')
  start : ∀ c ∈ s.toList.head?, ¬ ('0' ≤ c ∧ c ≤ '9')

theorem isDigit_iff {c : Char} : c.isDigit = true ↔ '0' ≤ c ∧ c ≤ '9' := by
  have hdigit : c.isDigit = (decide ('0' ≤ c) && decide (c ≤ '9')) := rfl
  rw [hdigit, Bool.and_eq_true, decide_eq_true_eq, decide_eq_true_eq]

theorem isAlpha_iff {c : Char} :
    c.isAlpha = true ↔ ('A' ≤ c ∧ c ≤ 'Z') ∨ ('a' ≤ c ∧ c ≤ 'z') := by
  have hupper : c.isUpper = decide ('A' ≤ c ∧ c ≤ 'Z') := rfl
  have hlower : c.isLower = (decide ('a' ≤ c) && decide (c ≤ 'z')) := rfl
  have halpha : c.isAlpha = (c.isUpper || c.isLower) := rfl
  rw [halpha, hupper, hlower, Bool.or_eq_true, Bool.and_eq_true, decide_eq_true_eq,
    decide_eq_true_eq, decide_eq_true_eq]

theorem isNameChar_iff {c : Char} : isNameChar c = true ↔
    c = '_' ∨ ('A' ≤ c ∧ c ≤ 'Z') ∨ ('a' ≤ c ∧ c ≤ 'z') ∨ ('0' ≤ c ∧ c ≤ '9') := by
  rw [isNameChar, Char.isAlphanum, Bool.or_eq_true, Bool.or_eq_true, beq_iff_eq, isAlpha_iff,
    isDigit_iff, or_assoc]

/-- The names of the grammar are those that pass the test. -/
theorem inGrammar_iff {s : String} : InGrammar s ↔ isName s = true := by
  have hempty : s = "" ↔ s.toList = [] := String.toList_eq_nil_iff.symm
  unfold isName
  cases hs : s.toList with
  | nil => exact ⟨fun h => absurd (hempty.mpr hs) h.ne_empty, nofun⟩
  | cons c r =>
    have hne : s ≠ "" := fun h => List.cons_ne_nil c r (hs.symm.trans (hempty.mp h))
    rw [Bool.and_eq_true, Bool.and_eq_true, Bool.not_eq_true', List.all_eq_true]
    constructor
    · intro h
      have hchars : ∀ d ∈ c :: r, isNameChar d = true := fun d hd =>
        isNameChar_iff.mpr (h.chars d (hs ▸ hd))
      have hstart : ¬ ('0' ≤ c ∧ c ≤ '9') := h.start c (by rw [hs]; rfl)
      obtain ⟨hc, hr⟩ := List.forall_mem_cons.mp hchars
      exact ⟨⟨hc, Bool.eq_false_iff.mpr fun hdigit => hstart (isDigit_iff.mp hdigit)⟩, hr⟩
    · rintro ⟨⟨hc, hdigit⟩, hr⟩
      have hchars : ∀ d ∈ c :: r, isNameChar d = true := List.forall_mem_cons.mpr ⟨hc, hr⟩
      refine ⟨hne, fun d hd => ?_, fun d hd => ?_⟩
      · exact isNameChar_iff.mp (hchars d (hs ▸ hd))
      · rw [hs] at hd
        obtain rfl := Option.some.inj hd
        exact fun h => Bool.eq_false_iff.mp hdigit (isDigit_iff.mpr h)

instance (s : String) : Decidable (InGrammar s) :=
  decidable_of_iff (isName s = true) inGrammar_iff.symm

/-! ## Names of texts -/

theorem inGrammar_fieldName (s : String) : InGrammar (fieldName s) :=
  inGrammar_iff.mpr (isName_fieldName s)

theorem inGrammar_typeName (s : String) : InGrammar (typeName s) :=
  inGrammar_iff.mpr (isName_typeName s)

/-- Nothing is replaced in a name and nothing is put before it, and in every other text something
is. -/
theorem sanitize_eq_self_iff {cs : List Char} :
    String.ofList (sanitize cs) = String.ofList cs ↔ InGrammar (String.ofList cs) := by
  constructor
  · intro h
    exact inGrammar_iff.mpr (h ▸ isName_sanitize cs)
  · intro h
    have hkept : cs.map toNameChar = cs := by
      refine (List.map_congr_left fun c hc => ?_).trans (List.map_id cs)
      exact if_pos (isNameChar_iff.mpr (h.chars c (by rwa [String.toList_ofList])))
    rw [sanitize, hkept]
    cases cs with
    | nil => exact absurd rfl h.ne_empty
    | cons c r =>
      have hstart : ¬ ('0' ≤ c ∧ c ≤ '9') := h.start c (by rw [String.toList_ofList]; rfl)
      rw [guardStart, if_neg fun hdigit => hstart (isDigit_iff.mp hdigit)]

/-- A foreign digit at the start is replaced, one of ASCII gets an underscore before it, and a text
without words is an underscore alone. -/
example : fieldName "٣ pets" = "_Pets" ∧ fieldName "3 pets" = "_3Pets" ∧ fieldName "--" = "_" := by
  decide +kernel

end ApiGraph.GraphQL
