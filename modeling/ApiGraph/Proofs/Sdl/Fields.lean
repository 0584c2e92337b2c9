import ApiGraph.Proofs.Sdl.Reads

/-!
# Printed fields are read back

What is printed for an argument or a field is what the reader of that part takes.  Arguments are
laid out in two ways, depending on whether one of them has a description; both are a first argument
and further ones behind commas.

* `reads_arguments`: the arguments of a field, however they are laid out.
* `itemised_fields`, `itemised_inputFields`: the fields of a type, each on its own lines.
-/

namespace ApiGraph.GraphQL.Sdl

open Token Reader

variable {rest lead blanks : List Char}

/-! ## Arguments -/

/-- A colon, a type, and what may follow a type but does not. -/
theorem takes_colonType {β : Type} {t : TypeRef} {k : TypeRef → Reader β} {b : β}
    (ht : t.Printable) (hrest : Ends rest) (hk : Reads (k t) [] [] b rest) :
    Takes (do Reader.punctuation ':'; k (← Reader.typeRef)) (':' :: ' ' :: t.text) [] b rest := by
  have htype : Takes (do k (← Reader.typeRef)) t.text [] b rest :=
    (takes_typeRef ht hrest).bind_nothing hk
  exact (takes_punctuation rfl _).bind (htype.toReads.after (all_isIgnored_singleton ' ' rfl))

theorem startsName_printTyped {name : String} (hname : isName name = true) (type : TypeRef)
    (hblanks : blanks.all isIgnored = true) (rest : List Char) :
    StartsName (blanks ++ printTyped name type ++ rest) := by
  rw [List.append_assoc, printTyped, List.append_assoc]
  exact (startsName hname (endsName_cons rfl _)).after hblanks

theorem takes_inputDefinition {v : InputValue} (hv : v.Printable) (level : Nat)
    (hlead : lead.all isIgnored = true) (hblanks : blanks.all isIgnored = true)
    (hrest : Ends rest) :
    Takes Reader.inputDefinition
      (lead ++ (describe level v.description ++ (blanks ++ printTyped v.name v.type)))
      v.descriptions (.ofValue v) rest := by
  have hnothing : Reads (do Reader.defaultValue; Reader.directives; return ⟨v.name, v.type⟩) [] []
      (InputDefinition.ofValue v) rest := by
    refine Reads.nothing_bind (reads_defaultValue_nothing hrest.value) ?_
    refine Reads.nothing_bind (reads_directives_nothing hrest.directive) ?_
    exact .pure _ rest
  have hname : Takes
      (do
        let name ← Reader.name
        Reader.punctuation ':'
        let type ← Reader.typeRef
        Reader.defaultValue
        Reader.directives
        return ⟨name, type⟩)
      (printTyped v.name v.type) [] (InputDefinition.ofValue v) rest := by
    refine Takes.bind (takes_name hv.name (endsName_cons rfl _)) ?_
    exact (takes_colonType hv.type hrest hnothing).toReads
  have hitem : Takes Reader.inputDefinition
      (describe level v.description ++ (blanks ++ printTyped v.name v.type))
      (v.description.toList ++ []) (.ofValue v) rest :=
    .described rfl (hname.after hblanks) (startsName_printTyped hv.name v.type hblanks rest)
  rw [List.append_nil] at hitem
  exact hitem.after hlead

/-- What a blank or a comma begins, and an argument with a name goes on. -/
theorem starts_of_lead {c : Char} (hc : isIgnored c = true) {cs : List Char}
    (h : StartsItem cs) : StartsItem (c :: cs) ∧ EndsName (c :: cs) := by
  have hcons : [c].all isIgnored = true := by rw [List.all_cons, hc]; rfl
  exact ⟨h.after hcons, endsName_of_isIgnored hc cs⟩

/-- An argument behind another one, where none has a description. -/
def inlineText (a : InputValue) : List Char :=
  [',', ' '] ++ printTyped a.name a.type

theorem printInline_false (as : List InputValue) :
    printInline false as = as.flatMap inlineText := by
  induction as with
  | nil => rfl
  | cons a as ih => rw [printInline, ih, List.flatMap_cons, inlineText, if_neg Bool.false_ne_true]

theorem itemised_inline {as : List InputValue} (has : ∀ a ∈ as, a.Printable)
    (hnone : ∀ a ∈ as, a.description = none) :
    Itemised Reader.inputDefinition inlineText InputValue.descriptions .ofValue as := by
  refine ⟨fun a ha rest hrest => ?_, fun a ha rest => ?_⟩
  · have hitem := takes_inputDefinition (has a ha) 0 (all_isIgnored_singleton ',' rfl)
      (all_isIgnored_singleton ' ' rfl) hrest
    rw [hnone a ha] at hitem
    exact hitem
  · have hname :=
      startsName_printTyped (has a ha).name a.type (all_isIgnored_singleton ' ' rfl) rest
    exact starts_of_lead rfl hname.startsItem

/-- The line break and the description of an argument, if it has one. -/
def spreadLead (a : InputValue) : List Char :=
  if a.description.isSome then '\n' :: describe 2 a.description else []

/-- An argument behind another one, where some have descriptions. -/
def spreadText (a : InputValue) : List Char :=
  [','] ++ (spreadLead a ++ (indentation 2 ++ printTyped a.name a.type))

theorem printSpread_false (as : List InputValue) :
    printSpread false as = as.flatMap spreadText := by
  induction as with
  | nil => rfl
  | cons a as ih =>
    rw [printSpread, ih, List.flatMap_cons, if_neg Bool.false_ne_true, spreadText, spreadLead]
    simp only [List.append_assoc]

theorem takes_spread {a : InputValue} (ha : a.Printable) (hlead : lead.all isIgnored = true)
    (hrest : Ends rest) :
    Takes Reader.inputDefinition
      (lead ++ (spreadLead a ++ (indentation 2 ++ printTyped a.name a.type)))
      a.descriptions (.ofValue a) rest := by
  have hindent := all_isIgnored_indentation 2
  rw [spreadLead]
  cases hd : a.description with
  | none =>
    have hitem := takes_inputDefinition ha 2 hlead hindent hrest
    rw [hd] at hitem
    exact hitem
  | some text =>
    have hline : (lead ++ ['\n']).all isIgnored = true := by
      rw [List.all_append, hlead]
      rfl
    have hitem := takes_inputDefinition ha 2 hline hindent hrest
    rw [hd, List.append_assoc] at hitem
    exact hitem

theorem startsItem_spread {a : InputValue} (ha : a.Printable) (rest : List Char) :
    StartsItem (spreadLead a ++ (indentation 2 ++ printTyped a.name a.type) ++ rest) := by
  have hname := (startsName_printTyped ha.name a.type (all_isIgnored_indentation 2) rest).startsItem
  rw [List.append_assoc, spreadLead]
  cases a.description with
  | none => exact hname
  | some text =>
    have hdescribed := (hname.described 2 (some text)).after (all_isIgnored_singleton '\n' rfl)
    rw [Option.isSome_some, if_pos rfl]
    exact hdescribed

theorem itemised_spread {as : List InputValue} (has : ∀ a ∈ as, a.Printable) :
    Itemised Reader.inputDefinition spreadText InputValue.descriptions .ofValue as := by
  refine ⟨fun a ha rest hrest => ?_, fun a ha rest => ?_⟩
  · exact takes_spread (has a ha) (all_isIgnored_singleton ',' rfl) hrest
  · exact starts_of_lead rfl (startsItem_spread (has a ha) rest)

/-- The arguments of a field, however they are laid out. -/
theorem reads_arguments {as : List InputValue} (has : ∀ a ∈ as, a.Printable)
    (hrest : NextIsNot '(' rest) :
    Reads (Reader.optionalSome '(' ')' Reader.inputDefinition) (printArguments as)
      (as.flatMap (·.descriptions)) (as.map .ofValue) rest := by
  cases as with
  | nil => exact reads_optionalSome_nothing hrest
  | cons a as =>
    have ha : a.Printable := has a (List.mem_cons_self ..)
    have has' : ∀ b ∈ as, b.Printable := fun b hb => has b (List.mem_cons_of_mem a hb)
    by_cases hdescribed : ((a :: as).any fun a => a.description.isSome) = true
    · have hblanks : ['\n', '\t'].all isIgnored = true := rfl
      have hitems := itemised_spread has'
      have hends := hitems.ends (ends_closing (Or.inl rfl) hblanks rest)
      have htakes : Takes (Reader.optionalSome '(' ')' Reader.inputDefinition) _ _ _ rest :=
        takes_optionalSome rfl (Or.inl rfl) hblanks (takes_spread ha List.all_nil hends) hitems
      have htext : printArguments (a :: as) = '(' :: ([] ++ (spreadLead a ++ (indentation 2 ++
          printTyped a.name a.type)) ++ (as.flatMap spreadText ++ (['\n', '\t'] ++ [')']))) := by
        rw [printArguments, if_neg (by simp), if_pos hdescribed, printSpread, printSpread_false,
          spreadLead, if_pos rfl]
        simp
      rw [htext]
      exact htakes.toReads
    · have hnone : ∀ b ∈ a :: as, b.description = none := by
        intro b hb
        rw [List.any_eq_true, not_exists] at hdescribed
        have hb' := hdescribed b
        rw [not_and] at hb'
        exact Option.not_isSome_iff_eq_none.mp (hb' hb)
      have hitems := itemised_inline has' fun b hb => hnone b (List.mem_cons_of_mem a hb)
      have hends := hitems.ends (ends_closing (Or.inl rfl) List.all_nil rest)
      have hfirst := takes_inputDefinition ha 0 List.all_nil List.all_nil hends
      rw [hnone a (List.mem_cons_self ..)] at hfirst
      have htakes : Takes (Reader.optionalSome '(' ')' Reader.inputDefinition) _ _ _ rest :=
        takes_optionalSome rfl (Or.inl rfl) List.all_nil hfirst hitems
      have htext : printArguments (a :: as) = '(' :: ([] ++ (describe 0 none ++ ([] ++
          printTyped a.name a.type)) ++ (as.flatMap inlineText ++ ([] ++ [')']))) := by
        rw [printArguments, if_neg (by simp), if_neg hdescribed, printInline, printInline_false,
          if_pos rfl]
        simp [describe]
      rw [htext]
      exact htakes.toReads

/-! ## Fields -/

theorem endsName_printArguments (as : List InputValue) (rest : List Char) :
    EndsName (printArguments as ++ ':' :: rest) := by
  rw [printArguments]
  split
  · exact endsName_cons rfl rest
  · split
    · exact endsName_cons rfl _
    · exact endsName_cons rfl _

/-- The rest of a line is empty. -/
theorem Ends.newline (h : Ends rest) : Ends (['\n'] ++ rest) := by
  have hline : ofText (['\n'] ++ rest) = ofText rest := ofText_skip rfl rest
  have hnext : ∀ c, NextIsNot c rest → NextIsNot c (['\n'] ++ rest) := by
    intro c hc
    rw [NextIsNot, hline]
    exact hc
  exact ⟨endsName_of_isIgnored rfl rest, hnext _ h.mark, hnext _ h.value, hnext _ h.directive⟩

theorem takes_fieldDefinition {f : Field} (hf : f.Printable) (hrest : Ends rest) :
    Takes Reader.fieldDefinition (printField f) f.descriptions (.ofField f) rest := by
  have hends := hrest.newline
  have hnothing : Reads
      (do Reader.directives; return ⟨f.name, f.arguments.map .ofValue, f.type⟩) [] []
      (FieldDefinition.ofField f) (['\n'] ++ rest) := by
    refine Reads.nothing_bind (reads_directives_nothing hends.directive) ?_
    exact .pure _ _
  have hname : Takes
      (do
        let name ← Reader.name
        let arguments ← Reader.optionalSome '(' ')' Reader.inputDefinition
        Reader.punctuation ':'
        let type ← Reader.typeRef
        Reader.directives
        return ⟨name, arguments, type⟩)
      (f.name.toList ++ (printArguments f.arguments ++ ':' :: ' ' :: f.type.text))
      ([] ++ (f.arguments.flatMap (·.descriptions) ++ [])) (FieldDefinition.ofField f)
      (['\n'] ++ rest) := by
    refine Takes.bind (takes_name hf.name ?_) (Reads.bind (reads_arguments hf.arguments ?_) ?_)
    · rw [List.append_assoc]
      exact endsName_printArguments _ _
    · exact nextIsNot_of_punctuation rfl (by decide) _
    · exact (takes_colonType hf.type hends hnothing).toReads
  have hstart : StartsName (['\t'] ++ (f.name.toList ++
      (printArguments f.arguments ++ ':' :: ' ' :: f.type.text)) ++ (['\n'] ++ rest)) := by
    rw [List.append_assoc, List.append_assoc, List.append_assoc]
    exact (startsName hf.name (endsName_printArguments _ _)).after
      (all_isIgnored_singleton '\t' rfl)
  have hfield : Takes Reader.fieldDefinition
      (describe 1 f.description ++ (['\t'] ++ (f.name.toList ++
        (printArguments f.arguments ++ ':' :: ' ' :: f.type.text))))
      (f.description.toList ++ ([] ++ (f.arguments.flatMap (·.descriptions) ++ [])))
      (FieldDefinition.ofField f) (['\n'] ++ rest) :=
    .described rfl (hname.after (all_isIgnored_singleton '\t' rfl)) hstart
  have htext : printField f = describe 1 f.description ++ (['\t'] ++ (f.name.toList ++
      (printArguments f.arguments ++ ':' :: ' ' :: f.type.text))) ++ ['\n'] := by
    simp [printField]
  rw [List.append_nil] at hfield
  rw [htext]
  exact hfield.before (all_isIgnored_singleton '\n' rfl)

theorem takes_inputField {v : InputValue} (hv : v.Printable) (hrest : Ends rest) :
    Takes Reader.inputDefinition (printInputField v) v.descriptions (.ofValue v) rest := by
  have hvalue :=
    takes_inputDefinition hv 1 List.all_nil (all_isIgnored_singleton '\t' rfl) hrest.newline
  have hfield := hvalue.before (all_isIgnored_singleton '\n' rfl)
  have htext : printInputField v = [] ++ (describe 1 v.description ++
      (['\t'] ++ printTyped v.name v.type)) ++ ['\n'] := by
    simp [printInputField]
  rw [htext]
  exact hfield

/-- A field begins with its description or with a tab. -/
theorem starts_described (d : Option String) {cs : List Char} (h : StartsItem ('\t' :: cs)) :
    StartsItem (describe 1 d ++ '\t' :: cs) ∧ EndsName (describe 1 d ++ '\t' :: cs) := by
  refine ⟨h.described 1 d, ?_⟩
  cases d with
  | none => exact endsName_cons rfl cs
  | some text => exact endsName_cons rfl _

theorem itemised_fields {fs : List Field} (hfs : ∀ f ∈ fs, f.Printable) :
    Itemised Reader.fieldDefinition printField Field.descriptions .ofField fs := by
  refine ⟨fun f hf rest hrest => takes_fieldDefinition (hfs f hf) hrest, fun f hf rest => ?_⟩
  have htext : printField f ++ rest = describe 1 f.description ++ '\t' :: (f.name.toList ++
      (printArguments f.arguments ++ ':' :: (' ' :: f.type.text ++ ['\n'] ++ rest))) := by
    simp [printField]
  have hends := endsName_printArguments f.arguments (' ' :: f.type.text ++ ['\n'] ++ rest)
  have hname := (startsName (hfs f hf).name hends).after (all_isIgnored_singleton '\t' rfl)
  rw [htext]
  exact starts_described f.description hname.startsItem

theorem itemised_inputFields {vs : List InputValue} (hvs : ∀ v ∈ vs, v.Printable) :
    Itemised Reader.inputDefinition printInputField InputValue.descriptions .ofValue vs := by
  refine ⟨fun v hv rest hrest => takes_inputField (hvs v hv) hrest, fun v hv rest => ?_⟩
  have htext : printInputField v ++ rest =
      describe 1 v.description ++ '\t' :: (printTyped v.name v.type ++ (['\n'] ++ rest)) := by
    simp [printInputField]
  have hname := startsName_printTyped (hvs v hv).name v.type (all_isIgnored_singleton '\t' rfl)
    (['\n'] ++ rest)
  rw [List.append_assoc] at hname
  rw [htext]
  exact starts_described v.description hname.startsItem

end ApiGraph.GraphQL.Sdl
