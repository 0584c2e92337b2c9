import ApiGraph.Proofs.Sdl.Fields

/-!
# Printed definitions are read back

A definition is a keyword, a name and what follows it: the fields of a type, nothing for a scalar,
the argument and the locations of a directive.  A keyword settles how the reader goes on, so each
kind of definition is read by itself.
-/

namespace ApiGraph.GraphQL.Sdl

open Token Reader

variable {rest : List Char}

/-! ## Types -/

section Definitions

variable {α γ : Type} {p q : Reader α} {cs : List Char} {texts : List String} {a : α}

/-- A keyword settles how to go on. -/
theorem takes_keyword {word : String} (hword : isName word = true)
    (hp : ∀ ts, p (.name word :: ts) = q ts) (hrest : EndsName (cs ++ rest))
    (h : Reads q cs texts a rest) : Takes p (word.toList ++ cs) texts a rest := by
  have htokens : ofText (word.toList ++ cs ++ rest) = .name word :: ofText (cs ++ rest) := by
    rw [List.append_assoc, ofText_name hword hrest]
  refine ⟨⟨?_, fun hreadable => ?_⟩, fun hreadable => ?_⟩
  · rw [htokens, hp]
    exact h.result
  · rw [htokens]
    exact Nat.le_succ_of_le (h.length_le hreadable)
  · rw [htokens]
    exact Nat.lt_succ_of_le (h.length_le hreadable)

/-- The fields of a type, each on its own lines. -/
theorem takes_fields {item : Reader α} {text : γ → List Char} {descriptions : γ → List String}
    {value : γ → α} {l : List γ} (h : Itemised item text descriptions value l) (hl : l ≠ [])
    (rest : List Char) :
    Takes (Reader.optionalSome '\x7b' '\x7d' item)
      ('\x7b' :: '\n' :: (l.flatMap text ++ ['\x7d'])) (l.flatMap descriptions) (l.map value)
      rest := by
  cases l with
  | nil => exact absurd rfl hl
  | cons x l =>
    have hends := h.of_cons.ends (ends_closing (Or.inr rfl) List.all_nil rest)
    have hfirst :=
      (h.takes x (List.mem_cons_self ..) _ hends).after (all_isIgnored_singleton '\n' rfl)
    have htakes : Takes (Reader.optionalSome '\x7b' '\x7d' item) _ _ _ rest :=
      takes_optionalSome rfl (Or.inr rfl) List.all_nil hfirst h.of_cons
    have htext : '\x7b' :: '\n' :: ((x :: l).flatMap text ++ ['\x7d']) =
        '\x7b' :: (['\n'] ++ text x ++ (l.flatMap text ++ ([] ++ ['\x7d']))) := by
      simp
    rw [htext]
    exact htakes

end Definitions

theorem reads_interfaces_nothing {c : Char} {ts : List Token}
    (h : ofText rest = .punctuation c :: ts) : Reads Reader.interfaces [] [] () rest := by
  refine .of_nothing ?_
  rw [h]
  rfl

/-- A definition with its description on lines of their own: a keyword, a name and what follows. -/
def definitionText (word : String) (d : Option String) (name : String) (cs : List Char) :
    List Char :=
  describe 0 d ++ (word.toList ++ ([' '] ++ (name.toList ++ cs))) ++ ['\n']

theorem startsItem_definitionText {word : String} (hword : isName word = true) (d : Option String)
    (name : String) (cs rest : List Char) :
    StartsItem (definitionText word d name cs ++ rest) := by
  have htext : definitionText word d name cs ++ rest = describe 0 d ++ (word.toList ++
      (' ' :: (name.toList ++ (cs ++ ('\n' :: rest))))) := by
    simp [definitionText]
  rw [htext]
  exact (startsName hword (endsName_cons rfl _)).startsItem.described 0 d

theorem takes_definition {word name : String} {d : Option String}
    {k : String → Reader TypeDefinition} {cs : List Char} {texts : List String}
    {found : TypeDefinition} (hword : isName word = true) (hname : isName name = true)
    (hk : ∀ ts, Reader.undescribed (.name word :: ts) =
      (do return Definition.plain (← (do k (← Reader.name)))) ts)
    (hcs : EndsName (cs ++ (['\n'] ++ rest))) (h : Reads (k name) cs texts found (['\n'] ++ rest)) :
    Takes Reader.definition (definitionText word d name cs) (d.toList ++ texts) (.plain found)
      rest := by
  have hrest : Reads (do k (← Reader.name)) ([' '] ++ (name.toList ++ cs)) texts found
      (['\n'] ++ rest) :=
    ((takes_name hname hcs).bind h).toReads.after (all_isIgnored_singleton ' ' rfl)
  have hplain : Reads (do return Definition.plain (← (do k (← Reader.name))))
      ([' '] ++ (name.toList ++ cs)) texts (.plain found) (['\n'] ++ rest) :=
    hrest.bind_nothing (.pure _ _)
  have hkeyword : Takes Reader.undescribed (word.toList ++ ([' '] ++ (name.toList ++ cs))) texts
      (.plain found) (['\n'] ++ rest) :=
    takes_keyword hword hk (endsName_cons rfl _) hplain
  have hstart : StartsName (word.toList ++ ([' '] ++ (name.toList ++ cs)) ++ (['\n'] ++ rest)) := by
    rw [List.append_assoc]
    exact startsName hword (endsName_cons rfl _)
  have hall : Takes Reader.definition
      (describe 0 d ++ (word.toList ++ ([' '] ++ (name.toList ++ cs)))) (d.toList ++ texts)
      (.plain found) (['\n'] ++ rest) := .described rfl hkeyword hstart
  exact hall.before (all_isIgnored_singleton '\n' rfl)

/-- The fields of a type stand behind a blank. -/
def fieldsText {γ : Type} (text : γ → List Char) (l : List γ) : List Char :=
  [' '] ++ '\x7b' :: '\n' :: (l.flatMap text ++ ['\x7d'])

theorem ofText_fieldsText {γ : Type} (text : γ → List Char) (l : List γ) (rest : List Char) :
    ofText (fieldsText text l ++ rest) =
      .punctuation '\x7b' :: ofText ('\n' :: (l.flatMap text ++ ['\x7d']) ++ rest) := by
  rw [fieldsText, List.append_assoc, ofText_skipAll (all_isIgnored_singleton ' ' rfl),
    List.cons_append, ofText_punctuation rfl]

theorem nextIsNot_fieldsText {γ : Type} (text : γ → List Char) (l : List γ) (rest : List Char) :
    NextIsNot '@' (fieldsText text l ++ rest) := by
  rw [NextIsNot, ofText_fieldsText, List.head?_cons]
  decide

theorem printObject_eq (o : ObjectType) : printObject o =
    definitionText "type" o.description o.name (fieldsText printField o.fields) := by
  have hkeyword : "type ".toList = "type".toList ++ [' '] := rfl
  have hopening : " \x7b\n".toList = [' ', '\x7b', '\n'] := rfl
  have hclosing : "\x7d\n".toList = ['\x7d', '\n'] := rfl
  rw [printObject, hkeyword, hopening, hclosing, definitionText, fieldsText]
  simp

theorem takes_object {o : ObjectType} (ho : o.Printable) (rest : List Char) :
    Takes Reader.definition (printObject o) o.descriptions
      (.plain (.object o.name (o.fields.map .ofField))) rest := by
  have hfields := takes_fields (itemised_fields ho.fields) ho.fields_ne_nil (['\n'] ++ rest)
  have hblock : Reads
      (do
        Reader.interfaces
        Reader.directives
        return .object o.name (← Reader.optionalSome '\x7b' '\x7d' Reader.fieldDefinition))
      (fieldsText printField o.fields) (o.fields.flatMap (·.descriptions))
      (TypeDefinition.object o.name (o.fields.map .ofField)) (['\n'] ++ rest) := by
    refine Reads.nothing_bind (reads_interfaces_nothing (ofText_fieldsText _ _ _)) ?_
    refine Reads.nothing_bind (reads_directives_nothing (nextIsNot_fieldsText _ _ _)) ?_
    exact (hfields.toReads.after (all_isIgnored_singleton ' ' rfl)).bind_nothing (.pure _ _)
  rw [printObject_eq]
  exact takes_definition rfl ho.name (fun _ => rfl) (endsName_cons rfl _) hblock

theorem printInputObject_eq (i : InputObject) : printInputObject i =
    definitionText "input" i.description i.name (fieldsText printInputField i.fields) := by
  have hkeyword : "input ".toList = "input".toList ++ [' '] := rfl
  have hopening : " \x7b\n".toList = [' ', '\x7b', '\n'] := rfl
  have hclosing : "\x7d\n".toList = ['\x7d', '\n'] := rfl
  rw [printInputObject, hkeyword, hopening, hclosing, definitionText, fieldsText]
  simp

theorem takes_inputObject {i : InputObject} (hi : i.Printable) (rest : List Char) :
    Takes Reader.definition (printInputObject i) i.descriptions
      (.plain (.input i.name (i.fields.map .ofValue))) rest := by
  have hfields := takes_fields (itemised_inputFields hi.fields) hi.fields_ne_nil (['\n'] ++ rest)
  have hblock : Reads
      (do
        Reader.directives
        return .input i.name (← Reader.optionalSome '\x7b' '\x7d' Reader.inputDefinition))
      (fieldsText printInputField i.fields) (i.fields.flatMap (·.descriptions))
      (TypeDefinition.input i.name (i.fields.map .ofValue)) (['\n'] ++ rest) := by
    refine Reads.nothing_bind (reads_directives_nothing (nextIsNot_fieldsText _ _ _)) ?_
    exact (hfields.toReads.after (all_isIgnored_singleton ' ' rfl)).bind_nothing (.pure _ _)
  rw [printInputObject_eq]
  exact takes_definition rfl hi.name (fun _ => rfl) (endsName_cons rfl _) hblock

theorem printJsonScalar_eq : printJsonScalar =
    definitionText "scalar" (some "Arbitrary JSON value") jsonName [] := by
  have hkeyword : "scalar ".toList = "scalar".toList ++ [' '] := rfl
  rw [printJsonScalar, hkeyword, definitionText]
  simp

theorem StartsItem.ends_newline (h : StartsItem rest) : Ends (['\n'] ++ rest) := by
  exact (h.after (all_isIgnored_singleton '\n' rfl)).ends (endsName_of_isIgnored rfl rest)

theorem takes_jsonScalar (hrest : StartsItem rest) :
    Takes Reader.definition printJsonScalar ["Arbitrary JSON value"] (.plain (.scalar jsonName))
      rest := by
  have hends := hrest.ends_newline
  have hscalar : Reads (do Reader.directives; return .scalar jsonName) [] []
      (TypeDefinition.scalar jsonName) (['\n'] ++ rest) :=
    Reads.nothing_bind (reads_directives_nothing hends.directive) (.pure _ _)
  rw [printJsonScalar_eq]
  exact takes_definition rfl rfl (fun _ => rfl) hends.name hscalar

/-! ## Directives -/

section Separated

variable {words : List String} {w : String} {ts rest' : List Token} {l : List String} {n : Nat}

theorem wordOf_name (hw : w ∈ words) (ts : List Token) :
    Reader.wordOf words (.name w :: ts) = .ok (w, ts) := by
  rw [Reader.wordOf, if_pos (List.contains_iff_mem.mpr hw)]

theorem moreNames_name (hw : w ∈ words)
    (h : Reader.moreNames '|' (Reader.wordOf words) n ts = .ok (l, rest')) :
    Reader.moreNames '|' (Reader.wordOf words) (n + 1) (.punctuation '|' :: .name w :: ts) =
      .ok (w :: l, rest') := by
  have hskip : Reader.skip (.punctuation '|' :: .name w :: ts) = .ok ((), .name w :: ts) := rfl
  rw [Reader.moreNames, bind_ok (isNext_punctuation '|' _), if_pos rfl, bind_ok hskip,
    bind_ok (wordOf_name hw ts), bind_ok h]
  rfl

theorem separated_name (hw : w ∈ words)
    (h : Reader.moreNames '|' (Reader.wordOf words) (ts.length + 1) ts = .ok (l, rest')) :
    Reader.separated '|' (Reader.wordOf words) (.name w :: ts) = .ok (w :: l, rest') := by
  have hnothing : Reader.optionalPunctuation '|' (.name w :: ts) = .ok ((), .name w :: ts) := rfl
  have hremaining : Reader.remaining ts = .ok (ts.length + 1, ts) := rfl
  rw [Reader.separated, bind_ok hnothing, bind_ok (wordOf_name hw ts), bind_ok hremaining,
    bind_ok h]
  rfl

end Separated

/-- The parts of requests that the built-in directives stand on. -/
def fragmentLocations : List String := ["FIELD", "FRAGMENT_SPREAD", "INLINE_FRAGMENT"]

def fragmentLocationsText : List Char :=
  "FIELD".toList ++ ([' ', '|', ' '] ++ ("FRAGMENT_SPREAD".toList ++ ([' ', '|', ' '] ++
    "INLINE_FRAGMENT".toList)))

theorem ofText_fragmentLocationsText (hrest : EndsName rest) :
    ofText (fragmentLocationsText ++ rest) =
      .name "FIELD" :: .punctuation '|' :: .name "FRAGMENT_SPREAD" :: .punctuation '|' ::
        .name "INLINE_FRAGMENT" :: ofText rest := by
  have hbar : ∀ r, ofText ([' ', '|', ' '] ++ r) = .punctuation '|' :: ofText r := by
    intro r
    show ofText (' ' :: '|' :: ' ' :: r) = _
    rw [ofText_skip rfl, ofText_punctuation rfl, ofText_skip rfl]
  have hname : ∀ r, EndsName ([' ', '|', ' '] ++ r) := fun r => endsName_cons rfl _
  rw [fragmentLocationsText, List.append_assoc, List.append_assoc, List.append_assoc,
    List.append_assoc, ofText_name rfl (hname _), hbar, ofText_name rfl (hname _), hbar,
    ofText_name rfl hrest]

theorem takes_fragmentLocations (hrest : EndsName rest) (hnot : NextIsNot '|' rest) :
    Takes (Reader.separated '|' (Reader.wordOf Reader.locations)) fragmentLocationsText []
      fragmentLocations rest := by
  have hend : ∀ n, Reader.moreNames '|' (Reader.wordOf Reader.locations) (n + 1) (ofText rest) =
      .ok ([], ofText rest) := by
    intro n
    rw [Reader.moreNames, bind_ok (isNext_of_nextIsNot hnot)]
    rfl
  have hthird := moreNames_name (w := "INLINE_FRAGMENT") (by decide)
    (hend ((ofText rest).length + 2))
  have hsecond := moreNames_name (w := "FRAGMENT_SPREAD") (by decide) hthird
  have hfirst := separated_name (w := "FIELD") (by decide) hsecond
  have htokens := ofText_fragmentLocationsText hrest
  refine ⟨⟨?_, fun _ => ?_⟩, fun _ => ?_⟩
  · rw [htokens]
    exact hfirst
  · rw [htokens]
    simp only [List.length_cons]
    omega
  · rw [htokens]
    simp only [List.length_cons]
    omega

/-- The argument of the built-in directives. -/
def conditionArgument : InputValue :=
  { name := "if", type := .nonNull (.named "Boolean") }

/-- What stands behind the arguments of a built-in directive. -/
def locationsText : List Char :=
  [' '] ++ ("on".toList ++ ([' '] ++ fragmentLocationsText))

theorem conditional_eq :
    "(if: Boolean!) on FIELD | FRAGMENT_SPREAD | INLINE_FRAGMENT\n".toList =
      printArguments [conditionArgument] ++ locationsText ++ ['\n'] := by
  decide +kernel

theorem startsName_locationsText (rest : List Char) : StartsName (locationsText ++ rest) := by
  rw [locationsText, List.append_assoc, List.append_assoc]
  exact (startsName rfl (endsName_cons rfl _)).after (all_isIgnored_singleton ' ' rfl)

theorem reads_directiveDefinition {name : String} (hname : isName name = true)
    (hrest : EndsName rest) (hnot : NextIsNot '|' rest) :
    Reads Reader.directiveDefinition
      ([' ', '@'] ++ (name.toList ++ (printArguments [conditionArgument] ++ locationsText))) []
      (.directive name) rest := by
  have hargument : ∀ a ∈ [conditionArgument], a.Printable := by
    intro a ha
    rw [List.mem_singleton.mp ha]
    exact ⟨rfl, rfl, rfl⟩
  have hlocations : Reads
      (do
        let _ ← Reader.separated '|' (Reader.wordOf Reader.locations)
        return Definition.directive name)
      ([' '] ++ fragmentLocationsText) [] (.directive name) rest := by
    refine Reads.after (all_isIgnored_singleton ' ' rfl) ?_
    refine (takes_fragmentLocations hrest hnot).toReads.bind_nothing ?_
    exact .pure _ _
  have hon : Takes (Reader.wordOf ["on"]) "on".toList [] "on"
      ([' '] ++ fragmentLocationsText ++ rest) :=
    .of_token (ofText_name rfl (endsName_cons rfl _)) rfl
  have hrepeatable : Reads (Reader.isWord "repeatable") [] [] false (locationsText ++ rest) := by
    have htokens : ofText (locationsText ++ rest) =
        .name "on" :: ofText ([' '] ++ fragmentLocationsText ++ rest) := by
      rw [locationsText, List.append_assoc, ofText_skipAll (all_isIgnored_singleton ' ' rfl),
        List.append_assoc]
      exact ofText_name rfl (endsName_cons rfl _)
    refine .of_nothing ?_
    rw [htokens]
    rfl
  refine Reads.bind ((takes_punctuation rfl _).toReads.after (all_isIgnored_singleton ' ' rfl)) ?_
  refine (Takes.bind (takes_name hname (endsName_cons rfl _)) ?_).toReads
  refine Reads.bind (reads_arguments hargument ?_) ?_
  · exact (startsName_locationsText rest).startsItem.nextIsNot '('
  · refine Reads.nothing_bind hrepeatable ?_
    exact (hon.bind hlocations).toReads.after (all_isIgnored_singleton ' ' rfl)

/-- What stands behind the description of a built-in directive, up to the end of its line. -/
def directiveText (name : String) : List Char :=
  "directive".toList ++ ([' ', '@'] ++ (name.toList ++
    (printArguments [conditionArgument] ++ locationsText)))

theorem printDirective_eq (name effect : String) :
    printDirective name effect = describe 0 (some effect) ++ directiveText name ++ ['\n'] := by
  have hkeyword : "directive @".toList = "directive".toList ++ [' ', '@'] := rfl
  have hconditional :=
    congrArg (describe 0 (some effect) ++ "directive @".toList ++ name.toList ++ ·) conditional_eq
  refine Eq.trans hconditional ?_
  unfold directiveText
  rw [hkeyword]
  simp only [List.append_assoc]

theorem startsName_directiveText (name : String) (rest : List Char) :
    StartsName (directiveText name ++ rest) := by
  unfold directiveText
  rw [List.append_assoc]
  exact startsName rfl (endsName_cons rfl _)

theorem takes_directive {name : String} (effect : String) (hname : isName name = true)
    (hrest : StartsItem rest) :
    Takes Reader.definition (printDirective name effect) [effect] (.directive name) rest := by
  have hnot := (hrest.after (all_isIgnored_singleton '\n' rfl)).nextIsNot '|'
  have hdirective := reads_directiveDefinition hname (endsName_cons (c := '\n') rfl rest) hnot
  have hkeyword : Takes Reader.undescribed (directiveText name) [] (.directive name)
      (['\n'] ++ rest) :=
    takes_keyword rfl (fun _ => rfl) (endsName_cons rfl _) hdirective
  have hall : Takes Reader.definition (describe 0 (some effect) ++ directiveText name) [effect]
      (.directive name) (['\n'] ++ rest) :=
    .described rfl hkeyword (startsName_directiveText name _)
  rw [printDirective_eq]
  exact hall.before (all_isIgnored_singleton '\n' rfl)

end ApiGraph.GraphQL.Sdl
