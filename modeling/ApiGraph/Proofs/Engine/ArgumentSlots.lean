import ApiGraph.Engine.Operation
import ApiGraph.Proofs.Engine.Walks

/-!
# Writing and reading arguments

The configuration of a field is written to an attribute at a place, and read from the first
attribute with the key for arguments.  Attributes may come in any order, several may have the key, and the
first of them may hold something else, so it has to be shown that both routes lead to one attribute.
They do because no attribute before the place has the key: `Resolver.Splits` takes the attributes
apart there, and all that is written or read is said in terms of the three parts.

A configuration that finds no arguments at its place is refused.  Nothing has changed then, and this
is the only case in which nothing has: what is taken makes a list longer.

* `Splits.argumentsSlot`, `Splits.arguments?`, `Splits.addFieldConfig`: what is found, read and
  written at the place.
* `exists_splits`: looking for the place makes one if there is none.
* `refused_iff`, `apply_addFieldConfig_eq_iff`: what is refused, for resolvers and for drafts.
* `slot_outcome`: all of it, for every resolver.
-/

namespace ApiGraph.Engine

/-! ## The first attribute for arguments -/

/-- The attributes before and behind the first one that is meant for arguments. -/
structure Resolver.Splits (r : Resolver) (before : List Attribute) (a : Attribute)
    (after : List Attribute) : Prop where
  attributes : r.attributes = before ++ a :: after
  key : a.isArguments = true
  first : ∀ b ∈ before, b.isArguments = false

namespace Resolver.Splits

variable {r : Resolver} {before after : List Attribute} {a : Attribute}

theorem findIdx? (h : r.Splits before a after) :
    r.attributes.findIdx? Attribute.isArguments = some before.length := by
  rw [h.attributes, List.findIdx?_append, List.findIdx?_eq_none_iff.mpr h.first, Option.none_or,
    List.findIdx?_cons, if_pos h.key, Option.map_some, Nat.zero_add]

/-- It is found where it is. -/
theorem argumentsSlot (h : r.Splits before a after) : r.argumentsSlot = (before.length, r) := by
  rw [argumentsSlot_eq, h.findIdx?, Option.getD_some]

theorem getElem? (h : r.Splits before a after) : r.attributes[before.length]? = some a := by
  rw [h.attributes, List.getElem?_append_right (Nat.le_refl _), Nat.sub_self,
    List.getElem?_cons_zero]

/-- It is the one that is read. -/
theorem arguments? (h : r.Splits before a after) : r.arguments? = a.value.arguments? := by
  have hbefore : before.find? (fun b => b.key == Attribute.argumentsKey) = none :=
    List.find?_eq_none.mpr fun b hb => Bool.eq_false_iff.mp (h.first b hb)
  have hfound : r.attribute? Attribute.argumentsKey = some a := by
    rw [attribute?, h.attributes, List.find?_append, hbefore, Option.none_or]
    exact List.find?_cons_of_pos h.key
  rw [Resolver.arguments?, hfound, Option.bind_some]

/-- Another attribute with the key in its place. -/
theorem replace (h : r.Splits before a after) {a' : Attribute} (hkey : a'.isArguments = true) :
    Splits { r with attributes := before ++ a' :: after } before a' after :=
  ⟨rfl, hkey, h.first⟩

/-- A configuration that is written there is the last one of the arguments, and nothing else is
written. -/
theorem addFieldConfig (h : r.Splits before a after) (config : FieldConfig) :
    r.addFieldConfig before.length config = a.value.arguments?.map fun previous =>
      { r with
        attributes := before ++ .arguments { fields := previous.fields ++ [config] } :: after } := by
  have hkey : a.key = Attribute.argumentsKey := beq_iff_eq.mp h.key
  have hset : ∀ b : Attribute, r.attributes.set before.length b = before ++ b :: after := by
    intro b
    rw [h.attributes, List.set_append_right _ _ (Nat.le_refl _), Nat.sub_self, List.set_cons_zero]
  unfold Resolver.addFieldConfig
  rw [h.getElem?]
  cases harguments : a.value.arguments? with
  | none => simp [harguments]
  | some previous =>
    simp only [Option.bind_eq_bind, Option.bind_some, harguments, hset, hkey, Option.pure_def,
      Option.map_some]
    rfl

/-- What has been written is read. -/
theorem arguments?_addFieldConfig (h : r.Splits before a after) (config : FieldConfig) :
    (r.addFieldConfig before.length config).bind (·.arguments?) =
      r.arguments?.map fun previous => { fields := previous.fields ++ [config] } := by
  rw [h.addFieldConfig, h.arguments?]
  cases a.value.arguments? with
  | none => rfl
  | some previous => exact (h.replace rfl).arguments?

end Resolver.Splits

/-- Looking for arguments finds the first attribute with the key, or puts one at the end. -/
theorem exists_splits (r : Resolver) :
    ∃ before a after, r.argumentsSlot.2.Splits before a after ∧
      r.argumentsSlot.1 = before.length ∧ (r.argumentsSlot.2 = r ∨ a = .arguments {}) := by
  cases hfound : r.attributes.findIdx? Attribute.isArguments with
  | some i =>
    obtain ⟨hlt, hkey, hfirst⟩ := List.findIdx?_eq_some_iff_getElem.mp hfound
    have hsplits : r.Splits (r.attributes.take i) r.attributes[i] (r.attributes.drop (i + 1)) := by
      refine ⟨?_, hkey, fun b hb => ?_⟩
      · rw [List.getElem_cons_drop, List.take_append_drop]
      · obtain ⟨j, hj, rfl⟩ := List.mem_take_iff_getElem.mp hb
        exact Bool.eq_false_iff.mpr (hfirst j (by omega))
    rw [hsplits.argumentsSlot]
    exact ⟨_, _, _, hsplits, rfl, Or.inl rfl⟩
  | none =>
    have hnone := List.findIdx?_eq_none_iff.mp hfound
    rw [Resolver.argumentsSlot_eq, hfound]
    exact ⟨r.attributes, .arguments {}, [], ⟨rfl, rfl, hnone⟩, rfl, Or.inr rfl⟩

/-! ## What is refused -/

namespace Resolver

/-- A configuration is refused if there is no attribute that holds arguments at its place. -/
theorem addFieldConfig_eq_none_iff {r : Resolver} {index : Nat} {config : FieldConfig} :
    r.addFieldConfig index config = none ↔
      ∀ key previous, r.attributes[index]? ≠ some ⟨key, .arguments previous⟩ := by
  unfold addFieldConfig
  cases r.attributes[index]? with
  | none => simp
  | some a =>
    obtain ⟨key, value⟩ := a
    cases value <;> simp [AttributeValue.arguments?]

/-- Nothing has changed if a configuration is refused, and something has if it is taken. -/
theorem refused_iff {r : Resolver} {index : Nat} {config : FieldConfig} :
    (r.addFieldConfig index config).getD r = r ↔ r.addFieldConfig index config = none := by
  constructor
  · intro h
    rw [addFieldConfig_eq_none_iff]
    intro key previous ha
    -- The attribute would be the one that has one configuration more than itself.
    rw [getD_addFieldConfig] at h
    have hattributes : r.attributes.modify index (Attribute.extend [config]) = r.attributes :=
      congrArg Resolver.attributes h
    have hsame := congrArg (fun as => as[index]?) hattributes
    rw [List.getElem?_modify_eq, ha] at hsame
    have hvalue := congrArg Attribute.value (Option.some.inj hsame)
    have hfields : previous.fields ++ [config] = previous.fields :=
      congrArg ArgumentsConfig.fields (AttributeValue.arguments.inj hvalue)
    exact absurd (List.append_right_eq_self.mp hfields) (List.cons_ne_nil _ _)
  · intro h
    rw [h, Option.getD_none]

end Resolver

/-- A draft is what it was before if the resolver refuses the configuration, and only then. -/
theorem apply_addFieldConfig_eq_iff {d : Draft} {root : Root} {r : Resolver}
    (h : d.resolver? root = some r) {index : Nat} {fieldName : String}
    {argumentNames : List String} :
    d.apply (.addFieldConfig root index fieldName argumentNames) = d ↔
      r.addFieldConfig index (Resolver.passOn fieldName argumentNames) = none := by
  have hid : d.setResolver root r = d :=
    (Draft.updateResolver_of_some h id).symm.trans (d.updateResolver_id root)
  rw [Draft.apply, Draft.updateResolver_of_some h, ← Resolver.refused_iff]
  constructor
  · intro heq
    have hresolver := congrArg (fun d => d.resolver? root) heq
    rw [Draft.resolver?_setResolver, if_pos rfl, h] at hresolver
    exact Option.some.inj hresolver
  · intro heq
    rw [heq, hid]

/-! ## Every resolver -/

/-- What comes of looking for the arguments of a resolver, of writing where they are, and of writing
elsewhere. -/
structure Resolver.SlotOutcome (r : Resolver) : Prop where
  /-- The place is that of the first attribute with the key for arguments. -/
  first : ∃ before a after, r.argumentsSlot.2.attributes = before ++ a :: after ∧
    before.length = r.argumentsSlot.1 ∧ a.key = Attribute.argumentsKey ∧
      ∀ b ∈ before, b.key ≠ Attribute.argumentsKey
  /-- Nothing changes if there is one, and else an empty one is appended. -/
  opened : r.argumentsSlot.2 =
    if ∃ a ∈ r.attributes, a.key = Attribute.argumentsKey then r
    else { r with attributes := r.attributes ++ [.arguments {}] }
  /-- Looking again finds the same place and changes nothing. -/
  again : r.argumentsSlot.2.argumentsSlot = r.argumentsSlot
  /-- A configuration is taken if the attribute at the place holds arguments, and these are the ones
  that are read. -/
  taken : ∀ config, (r.argumentsSlot.2.addFieldConfig r.argumentsSlot.1 config).isSome = true ↔
    ∃ previous, r.argumentsSlot.2.arguments? = some previous ∧
      r.argumentsSlot.2.attributes[r.argumentsSlot.1]? = some (.arguments previous)
  /-- It is always taken if the attribute was appended just now. -/
  appended : (∀ a ∈ r.attributes, a.key ≠ Attribute.argumentsKey) →
    ∀ config, (r.argumentsSlot.2.addFieldConfig r.argumentsSlot.1 config).isSome = true
  /-- What is read then has the configuration behind those before it, and all else is the same. -/
  readBack : ∀ config r', r.argumentsSlot.2.addFieldConfig r.argumentsSlot.1 config = some r' →
    ∃ previous, r.argumentsSlot.2.arguments? = some previous ∧
      r'.arguments? = some { fields := previous.fields ++ [config] } ∧
        r' = { r.argumentsSlot.2 with
          attributes := r.argumentsSlot.2.attributes.set r.argumentsSlot.1
            (.arguments { fields := previous.fields ++ [config] }) }
  /-- At any place, a configuration is refused if no arguments are there. -/
  refused : ∀ index config, r.addFieldConfig index config = none ↔
    ∀ key previous, r.attributes[index]? ≠ some ⟨key, .arguments previous⟩
  /-- Taken or refused, it comes to a change in place, of this attribute if it holds arguments. -/
  inPlace : ∀ index config, (r.addFieldConfig index config).getD r =
    { r with attributes := r.attributes.modify index (Attribute.extend [config]) }
  /-- The resolver is the same as before if a configuration is refused, and only then. -/
  unchanged : ∀ index config,
    (r.addFieldConfig index config).getD r = r ↔ r.addFieldConfig index config = none
  /-- So is a draft with the resolver. -/
  draft : ∀ (d : Draft) root, d.resolver? root = some r → ∀ index fieldName argumentNames,
    d.apply (.addFieldConfig root index fieldName argumentNames) = d ↔
      r.addFieldConfig index (Resolver.passOn fieldName argumentNames) = none

theorem isArguments_eq_false_iff {a : Attribute} :
    a.isArguments = false ↔ a.key ≠ Attribute.argumentsKey :=
  beq_eq_false_iff_ne

/-- An attribute for arguments that holds some. -/
theorem eq_arguments_iff {a : Attribute} (hkey : a.isArguments = true)
    {previous : ArgumentsConfig} :
    a.value.arguments? = some previous ↔ a = .arguments previous := by
  obtain ⟨key, value⟩ := a
  obtain rfl : key = Attribute.argumentsKey := beq_iff_eq.mp hkey
  cases value <;> simp [AttributeValue.arguments?, Attribute.arguments]

/-- The resolver in which the place has been looked for. -/
theorem opened_eq (r : Resolver) :
    r.argumentsSlot.2 =
      if ∃ a ∈ r.attributes, a.key = Attribute.argumentsKey then r
      else { r with attributes := r.attributes ++ [.arguments {}] } := by
  rw [Resolver.argumentsSlot_eq]
  cases hfound : r.attributes.findIdx? Attribute.isArguments with
  | some i =>
    obtain ⟨hlt, hkey, -⟩ := List.findIdx?_eq_some_iff_getElem.mp hfound
    rw [if_pos ⟨_, List.getElem_mem hlt, beq_iff_eq.mp hkey⟩]
  | none =>
    rw [if_neg]
    rintro ⟨a, ha, hkey⟩
    exact isArguments_eq_false_iff.mp (List.findIdx?_eq_none_iff.mp hfound a ha) hkey

/-- Every resolver finds its arguments where they are written, and refuses what it cannot keep. -/
theorem slot_outcome (r : Resolver) : r.SlotOutcome := by
  obtain ⟨before, a, after, hsplits, hslot, hopened⟩ := exists_splits r
  have hwritten := hsplits.addFieldConfig
  rw [← hslot] at hwritten
  have htaken : ∀ config, (r.argumentsSlot.2.addFieldConfig r.argumentsSlot.1 config).isSome =
      a.value.arguments?.isSome := by
    intro config
    rw [hwritten, Option.isSome_map]
  constructor
  case first =>
    exact ⟨before, a, after, hsplits.attributes, hslot.symm, beq_iff_eq.mp hsplits.key,
      fun b hb => isArguments_eq_false_iff.mp (hsplits.first b hb)⟩
  case opened => exact opened_eq r
  case again => rw [hsplits.argumentsSlot, ← hslot]
  case taken =>
    intro config
    rw [htaken, hslot, hsplits.getElem?, hsplits.arguments?, Option.isSome_iff_exists]
    refine exists_congr fun previous => ?_
    rw [Option.some.injEq, ← eq_arguments_iff hsplits.key, and_self_iff]
  case appended =>
    intro hnone config
    rw [htaken]
    rcases hopened with hsame | rfl
    · have hmem : a ∈ r.attributes := by
        rw [← hsame, hsplits.attributes]
        exact List.mem_append_right _ List.mem_cons_self
      exact absurd (beq_iff_eq.mp hsplits.key) (hnone a hmem)
    · rfl
  case readBack =>
    intro config r' hr'
    have hread := hsplits.arguments?_addFieldConfig config
    rw [← hslot, hr', Option.bind_some] at hread
    rw [hwritten] at hr'
    obtain ⟨previous, hprevious, rfl⟩ := Option.map_eq_some_iff.mp hr'
    rw [hsplits.arguments?, hprevious] at hread
    refine ⟨previous, hsplits.arguments?.trans hprevious, hread, ?_⟩
    rw [hsplits.attributes, hslot, List.set_append_right _ _ (Nat.le_refl _), Nat.sub_self,
      List.set_cons_zero]
  case refused => exact fun index config => Resolver.addFieldConfig_eq_none_iff
  case inPlace => exact fun index config => r.getD_addFieldConfig index config
  case unchanged => exact fun index config => Resolver.refused_iff
  case draft => exact fun d root h _ _ _ => apply_addFieldConfig_eq_iff h

end ApiGraph.Engine
