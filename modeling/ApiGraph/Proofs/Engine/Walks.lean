import ApiGraph.Proofs.Engine.Compilation
import Mathlib.Data.List.Basic

/-!
# Walks one behind the other

A walk over a document looks for the attribute for arguments of a root when it needs it for the first
time, and remembers the place.  The next walk looks for it again.  Both arrive at the same place,
whatever attributes the resolver had before: no step of a walk changes a key, and a new attribute
goes to the end, so the first attribute with a key stays where it is (`findIdx?_extendFirst`).

Hence a place that a walk remembers is one that it would find (`Filling.Finds`), and the walk is one
that remembers nothing, definition by definition.

* `Resolver.extend`: what a walk does to a resolver.
* `Filling.IsAt.addDefinition`: a definition, with a memory and without one.
* `addResolvers_eq_foldl`: a walk without a memory.
* `resolver?_addResolvers`: the resolver of a root behind a walk.
* `addResolvers_append`: a walk goes on where another one ended, and what it changes.
-/

namespace ApiGraph.Engine

open ApiGraph.GraphQL.Sdl (Definition Document FieldDefinition)

/-! ## Attributes -/

/-- Is the attribute meant for arguments? -/
def Attribute.isArguments (a : Attribute) : Bool :=
  a.key == Attribute.argumentsKey

/-- The attribute with more configurations of fields, if it holds arguments. -/
def Attribute.extend (configs : List FieldConfig) (a : Attribute) : Attribute :=
  match a.value with
  | .arguments config => { a with value := .arguments { fields := config.fields ++ configs } }
  | .string _ | .headers _ => a

/-- More configurations for the first attribute that is meant for arguments, which is put at the end
if there is none. -/
def extendFirst (configs : List FieldConfig) : List Attribute → List Attribute
  | [] => [.arguments { fields := configs }]
  | a :: rest =>
    if a.isArguments then a.extend configs :: rest else a :: extendFirst configs rest

@[simp] theorem isArguments_extend (configs : List FieldConfig) (a : Attribute) :
    (a.extend configs).isArguments = a.isArguments := by
  obtain ⟨key, value⟩ := a
  cases value <;> rfl

theorem extend_extend (before after : List FieldConfig) (a : Attribute) :
    (a.extend before).extend after = a.extend (before ++ after) := by
  obtain ⟨key, value⟩ := a
  cases value with
  | arguments config =>
    exact congrArg (fun fields => (⟨key, .arguments { fields }⟩ : Attribute))
      (List.append_assoc ..)
  | string text => rfl
  | headers headers => rfl

theorem extendFirst_extendFirst (before after : List FieldConfig) (attributes : List Attribute) :
    extendFirst after (extendFirst before attributes) =
      extendFirst (before ++ after) attributes := by
  induction attributes with
  | nil => rfl
  | cons a rest ih =>
    by_cases ha : a.isArguments = true
    · simp only [extendFirst, ha, if_true, isArguments_extend, extend_extend]
    · simp only [extendFirst, ha, if_false, ih, Bool.false_eq_true]

/-- The attribute is where it was, or it is the last one now. -/
theorem findIdx?_extendFirst (configs : List FieldConfig) (attributes : List Attribute) :
    (extendFirst configs attributes).findIdx? Attribute.isArguments =
      some ((attributes.findIdx? Attribute.isArguments).getD attributes.length) := by
  induction attributes with
  | nil => rfl
  | cons a rest ih =>
    by_cases ha : a.isArguments = true
    · rw [extendFirst, if_pos ha, List.findIdx?_cons, isArguments_extend, if_pos ha,
        List.findIdx?_cons, if_pos ha, Option.getD_some]
    · rw [extendFirst, if_neg ha, List.findIdx?_cons, if_neg ha, ih, List.findIdx?_cons, if_neg ha,
        Option.map_some]
      cases rest.findIdx? Attribute.isArguments <;> rfl

/-- Extending the first attribute for arguments, by its place. -/
theorem extendFirst_eq_modify (configs : List FieldConfig) (attributes : List Attribute) :
    extendFirst configs attributes =
      match attributes.findIdx? Attribute.isArguments with
      | some i => attributes.modify i (Attribute.extend configs)
      | none => attributes ++ [.arguments { fields := configs }] := by
  induction attributes with
  | nil => rfl
  | cons a rest ih =>
    by_cases ha : a.isArguments = true
    · rw [extendFirst, if_pos ha, List.findIdx?_cons, if_pos ha]
      rfl
    · rw [extendFirst, if_neg ha, List.findIdx?_cons, if_neg ha, ih]
      cases rest.findIdx? Attribute.isArguments <;> rfl

/-- Behind a text with the key for arguments, no other attribute is looked for. -/
example (config : FieldConfig) :
    extendFirst [config] [⟨Attribute.argumentsKey, .string "id"⟩, .arguments {}] =
      [⟨Attribute.argumentsKey, .string "id"⟩, .arguments {}] := rfl

/-! ## Resolvers -/

namespace Resolver

/-- The resolver with more fields and more configurations of fields. -/
def extend (r : Resolver) (names : List String) (configs : List FieldConfig) : Resolver :=
  { r with
    fieldNames := r.fieldNames ++ names
    attributes := if configs = [] then r.attributes else extendFirst configs r.attributes }

@[simp] theorem extend_nil (r : Resolver) : r.extend [] [] = r := by
  rw [extend, List.append_nil, if_pos rfl]

@[simp] theorem extend_extend (r : Resolver) (names names' : List String)
    (configs configs' : List FieldConfig) :
    (r.extend names configs).extend names' configs' =
      r.extend (names ++ names') (configs ++ configs') := by
  have hattributes : (if configs' = [] then (r.extend names configs).attributes
      else extendFirst configs' (r.extend names configs).attributes) =
        if configs ++ configs' = [] then r.attributes
        else extendFirst (configs ++ configs') r.attributes := by
    cases configs with
    | nil => rfl
    | cons config configs =>
      cases configs' with
      | nil => rw [List.append_nil, if_pos rfl, extend]
      | cons config' configs' =>
        rw [if_neg (List.cons_ne_nil _ _), extend, if_neg (List.cons_ne_nil _ _),
          extendFirst_extendFirst, if_neg (List.append_ne_nil_of_left_ne_nil (List.cons_ne_nil _ _) _)]
  rw [extend, hattributes, extend, extend, List.append_assoc]

/-- A configuration goes to the attribute at its place, or nowhere. -/
theorem getD_addFieldConfig (r : Resolver) (index : Nat) (config : FieldConfig) :
    (r.addFieldConfig index config).getD r =
      { r with attributes := r.attributes.modify index (Attribute.extend [config]) } := by
  rw [addFieldConfig, List.modify_eq_set_getElem?]
  cases ha : r.attributes[index]? with
  | none => rfl
  | some a =>
    obtain ⟨key, value⟩ := a
    have hsame : ∀ b, r.attributes[index]? = some b → r.attributes.set index b = r.attributes :=
      fun b hb => by
        obtain ⟨hlt, rfl⟩ := List.getElem?_eq_some_iff.mp hb
        exact List.set_getElem_self hlt
    cases value with
    | arguments config => rfl
    | string text =>
      exact congrArg (fun attributes => { r with attributes }) (hsame _ ha).symm
    | headers headers =>
      exact congrArg (fun attributes => { r with attributes }) (hsame _ ha).symm

theorem argumentsSlot_eq (r : Resolver) :
    r.argumentsSlot =
      ((r.attributes.findIdx? Attribute.isArguments).getD r.attributes.length,
        match r.attributes.findIdx? Attribute.isArguments with
        | some _ => r
        | none => { r with attributes := r.attributes ++ [.arguments {}] }) := by
  have hslot : r.argumentsSlot = match r.attributes.findIdx? Attribute.isArguments with
      | some i => (i, r)
      | none => (r.attributes.length, { r with attributes := r.attributes ++ [.arguments {}] }) := rfl
  rw [hslot]
  cases r.attributes.findIdx? Attribute.isArguments <;> rfl

/-- A configuration goes to the attribute that is looked up for it. -/
theorem addFieldConfig_argumentsSlot (r : Resolver) (config : FieldConfig) :
    (r.argumentsSlot.2.addFieldConfig r.argumentsSlot.1 config).getD r.argumentsSlot.2 =
      r.extend [] [config] := by
  rw [getD_addFieldConfig, argumentsSlot_eq, extend, if_neg (List.cons_ne_nil _ _),
    extendFirst_eq_modify, List.append_nil]
  cases r.attributes.findIdx? Attribute.isArguments with
  | some i => rfl
  | none =>
    refine congrArg (fun attributes => { r with attributes }) ?_
    rw [Option.getD_none, List.modify_eq_set_getElem?]
    simp [Attribute.extend, Attribute.arguments]

end Resolver

/-! ## Drafts -/

namespace Draft

theorem updateResolver_of_none {d : Draft} {root : Root} (h : d.resolver? root = none)
    (change : Resolver → Resolver) : d.updateResolver root change = d := by
  rw [updateResolver, h]

theorem updateResolver_of_some {d : Draft} {root : Root} {r : Resolver}
    (h : d.resolver? root = some r) (change : Resolver → Resolver) :
    d.updateResolver root change = d.setResolver root (change r) := by
  rw [updateResolver, h]

theorem updateResolver_id (d : Draft) (root : Root) : d.updateResolver root id = d := by
  obtain ⟨dataSources, query, mutation, mappings⟩ := d
  cases root with
  | query => cases query <;> rfl
  | mutation => cases mutation <;> rfl

theorem updateResolver_updateResolver (d : Draft) (root : Root)
    (first second : Resolver → Resolver) :
    (d.updateResolver root first).updateResolver root second =
      d.updateResolver root (second ∘ first) := by
  cases hr : d.resolver? root with
  | none => rw [updateResolver_of_none hr, updateResolver_of_none hr, updateResolver_of_none hr]
  | some r =>
    have hfirst : (d.setResolver root (first r)).resolver? root = some (first r) := by
      rw [resolver?_setResolver, if_pos rfl]
    rw [updateResolver_of_some hr, updateResolver_of_some hfirst, updateResolver_of_some hr]
    cases root <;> rfl

/-- The draft with more fields and more configurations of fields for a root, if that has a
resolver. -/
def extend (d : Draft) (root : Root) (names : List String) (configs : List FieldConfig) : Draft :=
  d.updateResolver root fun r => r.extend names configs

@[simp] theorem extend_nil (d : Draft) (root : Root) : d.extend root [] [] = d := by
  simp only [extend, Resolver.extend_nil]
  exact d.updateResolver_id root

@[simp] theorem extend_extend (d : Draft) (root : Root) (names names' : List String)
    (configs configs' : List FieldConfig) :
    (d.extend root names configs).extend root names' configs' =
      d.extend root (names ++ names') (configs ++ configs') := by
  rw [extend, extend, updateResolver_updateResolver]
  refine congrArg (d.updateResolver root) (funext fun r => ?_)
  exact r.extend_extend names names' configs configs'

/-- A definition, without a memory: the root that it defines has a resolver, which gets its
fields. -/
def addDefinition (dataSource : Nat) (url : String) (d : Draft) : Definition → Draft
  | .plain (.object name fields) =>
    match Root.ofName? name with
    | none => d
    | some root => (d.ensureResolver root dataSource url).extend root (fields.map (·.name))
        (fields.flatMap configsOf)
  | _ => d

end Draft

/-! ## Places that are remembered -/

/-- A place that was looked up for a root is the one that would be found now. -/
def Filling.Finds (f : Filling) : Prop :=
  ∀ root i, f.slots.get root = some i →
    ∃ r, f.draft.resolver? root = some r ∧ r.attributes.findIdx? Attribute.isArguments = some i

/-- The filling has this draft, and remembers only places that can be found. -/
structure Filling.IsAt (f : Filling) (d : Draft) : Prop where
  draft : f.draft = d
  finds : f.Finds

variable {f : Filling} {d : Draft} {root : Root} {dataSource : Nat} {url : String}

theorem Filling.Finds.slot_eq (h : f.Finds) {r : Resolver} (hr : f.draft.resolver? root = some r) :
    f.slot root r = r.argumentsSlot := by
  rw [Filling.slot]
  cases hs : f.slots.get root with
  | none => rfl
  | some i =>
    obtain ⟨r', hr', hfound⟩ := h root i hs
    obtain rfl := Option.some.inj (hr'.symm.trans hr)
    rw [Resolver.argumentsSlot_eq, hfound]
    rfl

namespace Filling.IsAt

/-- A configuration goes to the same place, whether that is remembered or looked up. -/
theorem addConfig (h : f.IsAt d) (root : Root) (field : FieldDefinition) :
    (f.addConfig root field).IsAt
      (d.extend root [] [Resolver.passOn field.name field.argumentNames]) := by
  obtain ⟨rfl, hfinds⟩ := h
  cases hr : f.draft.resolver? root with
  | none =>
    rw [Filling.addConfig, hr]
    exact ⟨(Draft.updateResolver_of_none hr _).symm, hfinds⟩
  | some r =>
    let extended := r.extend [] [Resolver.passOn field.name field.argumentNames]
    have hadd : f.addConfig root field =
        { draft := f.draft.setResolver root extended
          slots := f.slots.set root (some r.argumentsSlot.1) } := by
      rw [Filling.addConfig, hr]
      simp only [hfinds.slot_eq hr, Resolver.addFieldConfig_argumentsSlot]
      rfl
    rw [hadd]
    refine ⟨(Draft.updateResolver_of_some hr fun r => r.extend ..).symm, fun root' i hi => ?_⟩
    rw [ByRoot.get_set] at hi
    rw [Draft.resolver?_setResolver]
    by_cases heq : root' = root
    · rw [if_pos heq] at hi ⊢
      refine ⟨extended, rfl, ?_⟩
      rw [← hi, Resolver.argumentsSlot_eq]
      exact findIdx?_extendFirst ..
    · rw [if_neg heq] at hi ⊢
      exact hfinds root' i hi

theorem addConfigs {α : Type} (as : List α) (h : f.IsAt d) (root : Root)
    (field : FieldDefinition) :
    (as.foldl (fun f _ => f.addConfig root field) f).IsAt
      (d.extend root []
        (List.replicate as.length (Resolver.passOn field.name field.argumentNames))) := by
  induction as generalizing f d with
  | nil =>
    rw [List.length_nil, List.replicate_zero, Draft.extend_nil]
    exact h
  | cons a as ih =>
    have hrest := ih (h.addConfig root field)
    rw [Draft.extend_extend] at hrest
    exact hrest

/-- Attributes stay where they are when a field is added by its name. -/
theorem addName (h : f.IsAt d) (root : Root) (fieldName : String) :
    IsAt { f with draft := f.draft.updateResolver root fun r => r.addField fieldName }
      (d.extend root [fieldName] []) := by
  obtain ⟨rfl, hfinds⟩ := h
  refine ⟨rfl, fun root' i hi => ?_⟩
  obtain ⟨r, hr, hfound⟩ := hfinds root' i hi
  rw [Draft.resolver?_updateResolver]
  by_cases heq : root' = root
  · rw [if_pos heq, ← heq, hr]
    exact ⟨r.addField fieldName, rfl, hfound⟩
  · rw [if_neg heq]
    exact ⟨r, hr, hfound⟩

theorem addField (h : f.IsAt d) (root : Root) (field : FieldDefinition) :
    (f.addField root field).IsAt (d.extend root [field.name] (configsOf field)) := by
  have hadd := (h.addName root field.name).addConfigs field.arguments root field
  rw [Draft.extend_extend, ← configs_signatureOf, configs_eq_configsOf] at hadd
  exact hadd

theorem addFields (fields : List FieldDefinition) (h : f.IsAt d) (root : Root) :
    (fields.foldl (fun f field => f.addField root field) f).IsAt
      (d.extend root (fields.map (·.name)) (fields.flatMap configsOf)) := by
  induction fields generalizing f d with
  | nil =>
    rw [List.map_nil, List.flatMap_nil, Draft.extend_nil]
    exact h
  | cons field fields ih =>
    have hrest := ih (h.addField root field)
    rw [Draft.extend_extend] at hrest
    exact hrest

/-- No place is remembered for a resolver that was not there. -/
theorem ensureResolver (h : f.IsAt d) (root : Root) (dataSource : Nat) (url : String) :
    IsAt { f with draft := f.draft.ensureResolver root dataSource url }
      (d.ensureResolver root dataSource url) := by
  obtain ⟨rfl, hfinds⟩ := h
  refine ⟨rfl, fun root' i hi => ?_⟩
  obtain ⟨r, hr, hfound⟩ := hfinds root' i hi
  refine ⟨r, ?_, hfound⟩
  rw [Draft.resolver?_ensureResolver]
  by_cases heq : root' = root
  · rw [if_pos heq, ← heq, hr, Option.some_or]
  · rw [if_neg heq, hr]

theorem addDefinition (h : f.IsAt d) (definition : Definition) :
    (f.addDefinition dataSource url definition).IsAt
      (d.addDefinition dataSource url definition) := by
  match definition with
  | .plain (.object name fields) =>
    rw [Filling.addDefinition, Draft.addDefinition]
    cases Root.ofName? name with
    | none => exact h
    | some root => exact (h.ensureResolver root dataSource url).addFields fields root
  | .plain .schema | .plain (.scalar _) | .plain (.interface _ _) | .plain (.union _ _)
  | .plain (.enum _ _) | .plain (.input _ _) | .extension _ | .directive _ => exact h

theorem addDefinitions (document : Document) (h : f.IsAt d) :
    (document.foldl (Filling.addDefinition dataSource url) f).IsAt
      (document.foldl (Draft.addDefinition dataSource url) d) := by
  induction document generalizing f d with
  | nil => exact h
  | cons definition document ih => exact ih (h.addDefinition definition)

end Filling.IsAt

namespace Draft

/-- A walk is one that remembers nothing. -/
theorem addResolvers_eq_foldl (d : Draft) (document : Document) (dataSource : Nat) (url : String) :
    d.addResolvers document dataSource url =
      document.foldl (addDefinition dataSource url) d := by
  have hstart : Filling.IsAt { draft := d } d :=
    ⟨rfl, fun root i hi => by cases root <;> exact nomatch hi⟩
  exact (hstart.addDefinitions document).draft

/-! ## What a walk changes -/

/-- The resolver that a root has, or is given. -/
def resolverFor (d : Draft) (root : Root) (dataSource : Nat) (url : String) : Resolver :=
  (d.resolver? root).getD (.empty root.name dataSource url)

theorem resolver?_extend (d : Draft) (root other : Root) (names : List String)
    (configs : List FieldConfig) :
    (d.extend root names configs).resolver? other =
      if other = root then (d.resolver? root).map (·.extend names configs)
      else d.resolver? other :=
  resolver?_updateResolver ..

/-- The resolver of a root behind a definition. -/
theorem resolver?_addDefinition (d : Draft) (dataSource : Nat) (url : String)
    (definition : Definition) (root : Root) :
    (d.addDefinition dataSource url definition).resolver? root =
      match fieldsGiven? root definition with
      | some fields => some ((d.resolverFor root dataSource url).extend (fields.map (·.name))
          (fields.flatMap configsOf))
      | none => d.resolver? root := by
  match definition with
  | .plain (.object name fields) =>
    rw [addDefinition, fieldsGiven?]
    by_cases hname : name = root.name
    · rw [if_pos hname, (Root.ofName?_eq_some_iff name root).mpr hname]
      rw [resolver?_extend, if_pos rfl, resolver?_ensureResolver, if_pos rfl, resolverFor]
      cases d.resolver? root <;> rfl
    · rw [if_neg hname]
      cases hroot : Root.ofName? name with
      | none => rfl
      | some found =>
        have hne : root ≠ found := by
          rintro rfl
          exact hname ((Root.ofName?_eq_some_iff name root).mp hroot)
        rw [resolver?_extend, if_neg hne, resolver?_ensureResolver, if_neg hne]
  | .plain .schema | .plain (.scalar _) | .plain (.interface _ _) | .plain (.union _ _)
  | .plain (.enum _ _) | .plain (.input _ _) | .extension _ | .directive _ => rfl

theorem definedFields_of_not_any {document : Document}
    (h : document.any (definesRoot root) = false) : definedFields root document = [] := by
  rw [any_definesRoot, Bool.not_eq_false', List.isEmpty_iff] at h
  rw [← flatten_filterMap_fieldsGiven?, h, List.flatten_nil]

/-- The resolver of a root behind a walk has all fields of its definitions, and nothing else is new
in it. -/
theorem resolver?_addResolvers (d : Draft) (document : Document) (root : Root) :
    (d.addResolvers document dataSource url).resolver? root =
      if document.any (definesRoot root) then
        some ((d.resolverFor root dataSource url).extend
          ((definedFields root document).map (·.name))
          ((definedFields root document).flatMap configsOf))
      else d.resolver? root := by
  rw [addResolvers_eq_foldl]
  induction document generalizing d with
  | nil => rfl
  | cons definition document ih =>
    have hstep := d.resolver?_addDefinition dataSource url definition root
    have hfields : definedFields root (definition :: document) =
        (fieldsGiven? root definition).getD [] ++ definedFields root document := List.flatMap_cons
    rw [List.foldl_cons, ih, List.any_cons, ← isSome_fieldsGiven?, hfields, resolverFor, hstep]
    cases hgiven : fieldsGiven? root definition with
    | none => rfl
    | some fields =>
      rw [Option.isSome_some, Bool.true_or, if_pos rfl, Option.getD_some, Option.getD_some,
        Resolver.extend_extend, ← List.map_append, ← List.flatMap_append]
      cases hany : document.any (definesRoot root) with
      | true => rfl
      | false =>
        rw [definedFields_of_not_any hany, List.append_nil]
        rfl

/-- What a walk over a document changes in a draft. -/
structure Walked (d : Draft) (document : Document) (dataSource : Nat) (url : String)
    (d' : Draft) : Prop where
  dataSources : d'.dataSources = d.dataSources
  mappings : d'.mappings = d.mappings
  undefined : ∀ root, document.any (definesRoot root) = false →
    d'.resolver? root = d.resolver? root
  /-- A resolver that is there gets the fields behind its own, and their configurations into its
  first attribute for arguments. -/
  existing : ∀ root r, d.resolver? root = some r →
    d'.resolver? root = some (r.extend ((definedFields root document).map (·.name))
      ((definedFields root document).flatMap configsOf))
  created : ∀ root, d.resolver? root = none → document.any (definesRoot root) = true →
    d'.resolver? root = some ((Resolver.empty root.name dataSource url).extend
      ((definedFields root document).map (·.name)) ((definedFields root document).flatMap configsOf))

theorem walked_addResolvers (d : Draft) (document : Document) (dataSource : Nat) (url : String) :
    Walked d document dataSource url (d.addResolvers document dataSource url) where
  dataSources := congrArg Prod.fst (frame_addResolvers d document dataSource url)
  mappings := congrArg Prod.snd (frame_addResolvers d document dataSource url)
  undefined := fun root hany => by rw [resolver?_addResolvers, hany, if_neg Bool.false_ne_true]
  existing := fun root r hr => by
    rw [resolver?_addResolvers, resolverFor, hr, Option.getD_some]
    cases hany : document.any (definesRoot root) with
    | true => exact if_pos rfl
    | false =>
      rw [definedFields_of_not_any hany, List.map_nil, List.flatMap_nil, Resolver.extend_nil]
      exact if_neg Bool.false_ne_true
  created := fun root hr hany => by
    rw [resolver?_addResolvers, resolverFor, hr, hany, if_pos rfl, Option.getD_none]

/-- A walk over a document goes on where a walk over the definitions before ended, and changes
nothing but the resolvers of the roots that the document defines. -/
theorem addResolvers_append (d : Draft) (dataSource : Nat) (url : String) :
    (∀ first second : Document,
      d.addResolvers (first ++ second) dataSource url =
        (d.addResolvers first dataSource url).addResolvers second dataSource url) ∧
      ∀ document, Walked d document dataSource url (d.addResolvers document dataSource url) := by
  refine ⟨fun first second => ?_, fun document => walked_addResolvers d document dataSource url⟩
  rw [addResolvers_eq_foldl, addResolvers_eq_foldl, addResolvers_eq_foldl, List.foldl_append]

end Draft

end ApiGraph.Engine
