import ApiGraph.Engine.Operation
import ApiGraph.Proofs.Engine.Compilation

/-!
# What a draft keeps

However a draft is built, its data sources stay where they were created, and the resolver of a root
remains the one of the operation that created it: for the same type, with the same data source, and
with attributes that are the URL and perhaps arguments behind it (`Resolver.IsFor`).

A walk over a document remembers the place of the arguments of a root.  That place is the second one
of a resolver that has arguments there (`Filling.Fits`), so a configuration of a field never fails to
find its place: the walk that stops where one does (`Draft.addResolvers?`) goes as far as the one that
passes over it.

* `addConfig?_eq`, `addField?_eq`, `addDefinition?_eq`: the steps of a walk.
* `Has.apply`, `has_after`: the resolvers, for one operation and for a history.
* `kept_after`: data sources, resolvers, walks and the finished configuration, after every history.
-/

namespace ApiGraph.Engine

open ApiGraph.GraphQL.Sdl (Definition Document FieldDefinition)

/-! ## Resolvers -/

/-- The attributes are a URL and arguments. -/
def Resolver.IsOpen (r : Resolver) : Prop :=
  ∃ url a, r.attributes = [.url url, .arguments a]

/-- A resolver for a root that was created for a data source and a URL. -/
structure Resolver.IsFor (r : Resolver) (root : Root) (dataSource : Nat) (url : String) : Prop where
  typeName : r.typeName = root.name
  dataSource : r.dataSource = dataSource
  attributes : r.attributes = [.url url] ∨ ∃ a, r.attributes = [.url url, .arguments a]

namespace Resolver.IsFor

variable {r : Resolver} {root : Root} {dataSource : Nat} {url : String}

theorem empty (root : Root) (dataSource : Nat) (url : String) :
    (Resolver.empty root.name dataSource url).IsFor root dataSource url :=
  ⟨rfl, rfl, Or.inl rfl⟩

theorem addField (h : r.IsFor root dataSource url) (fieldName : String) :
    (r.addField fieldName).IsFor root dataSource url :=
  ⟨h.typeName, h.dataSource, h.attributes⟩

/-- The arguments are in the second place. -/
theorem argumentsSlot (h : r.IsFor root dataSource url) :
    r.argumentsSlot.1 = 1 ∧ r.argumentsSlot.2.IsFor root dataSource url ∧
      r.argumentsSlot.2.IsOpen := by
  rcases h.attributes with hurl | ⟨a, ha⟩
  · have hslot : r.argumentsSlot = (1, { r with attributes := [.url url, .arguments {}] }) := by
      rw [Resolver.argumentsSlot, hurl]
      rfl
    rw [hslot]
    exact ⟨rfl, ⟨h.typeName, h.dataSource, Or.inr ⟨{}, rfl⟩⟩, url, {}, rfl⟩
  · have hslot : r.argumentsSlot = (1, r) := by
      rw [Resolver.argumentsSlot, ha]
      rfl
    rw [hslot]
    exact ⟨rfl, h, url, a, ha⟩

/-- The configuration of a field goes to the arguments, or nowhere. -/
theorem addFieldConfig (h : r.IsFor root dataSource url) (index : Nat) (config : FieldConfig) :
    ((r.addFieldConfig index config).getD r).IsFor root dataSource url := by
  cases hadd : r.addFieldConfig index config with
  | none => exact h
  | some r' =>
    simp only [Resolver.addFieldConfig, Option.bind_eq_bind, Option.bind_eq_some_iff,
      Option.pure_def, Option.some.injEq] at hadd
    obtain ⟨a, ha, arguments, harguments, rfl⟩ := hadd
    refine ⟨h.typeName, h.dataSource, Or.inr ?_⟩
    have hplace : index = 1 ∧ ∃ b, r.attributes = [.url url, .arguments b] := by
      rcases h.attributes with hurl | ⟨b, hb⟩
      · rw [hurl] at ha
        match index, ha with
        | 0, ha =>
          obtain rfl := Option.some.inj ha
          exact nomatch harguments
      · refine ⟨?_, b, hb⟩
        rw [hb] at ha
        match index, ha with
        | 0, ha =>
          obtain rfl := Option.some.inj ha
          exact nomatch harguments
        | 1, _ => rfl
    obtain ⟨rfl, b, hb⟩ := hplace
    rw [hb] at ha
    obtain rfl := Option.some.inj ha
    exact ⟨_, congrArg (List.set · 1 _) hb⟩

end Resolver.IsFor

theorem Resolver.IsOpen.addFieldConfig {r : Resolver} (h : r.IsOpen) (config : FieldConfig) :
    ∃ r', r.addFieldConfig 1 config = some r' ∧ r'.IsOpen := by
  obtain ⟨url, a, ha⟩ := h
  refine ⟨{ r with attributes := [.url url, .arguments { fields := a.fields ++ [config] }] }, ?_,
    _, _, rfl⟩
  rw [Resolver.addFieldConfig, ha]
  rfl

/-! ## A walk that stops -/

namespace Filling

/-- Add the configuration of a field once; there is no result if it finds no place. -/
def addConfig? (f : Filling) (root : Root) (field : FieldDefinition) : Option Filling :=
  match f.draft.resolver? root with
  | none => some f
  | some r =>
    let (index, r) := f.slot root r
    let config := Resolver.passOn field.name field.argumentNames
    (r.addFieldConfig index config).map fun r =>
      { draft := f.draft.setResolver root r
        slots := f.slots.set root (some index) }

/-- Add a field, and its configuration once for each argument. -/
def addField? (f : Filling) (root : Root) (field : FieldDefinition) : Option Filling :=
  let f := { f with draft := f.draft.updateResolver root fun r => r.addField field.name }
  field.arguments.foldlM (fun f _ => f.addConfig? root field) f

/-- Take a definition in. -/
def addDefinition? (dataSource : Nat) (url : String) (f : Filling) : Definition → Option Filling
  | .plain (.object name fields) =>
    match Root.ofName? name with
    | none => some f
    | some root =>
      let f := { f with draft := f.draft.ensureResolver root dataSource url }
      fields.foldlM (fun f field => f.addField? root field) f
  | _ => some f

end Filling

/-- Add the resolvers for a document; there is no result if the configuration of a field finds no
place. -/
def Draft.addResolvers? (d : Draft) (document : Document) (dataSource : Nat) (url : String) :
    Option Draft :=
  (document.foldlM (Filling.addDefinition? dataSource url) { draft := d }).map (·.draft)

/-- A walk that never stops, and what all of its steps keep. -/
theorem foldlM_eq_some {α β : Type} {step? : β → α → Option β} {step : β → α → β}
    (Inv : β → Prop) (h : ∀ b a, Inv b → step? b a = some (step b a) ∧ Inv (step b a))
    (as : List α) {b : β} (hb : Inv b) :
    as.foldlM step? b = some (as.foldl step b) ∧ Inv (as.foldl step b) := by
  induction as generalizing b with
  | nil => exact ⟨rfl, hb⟩
  | cons a as ih =>
    obtain ⟨hstep, hinv⟩ := h b a hb
    rw [List.foldlM_cons, hstep]
    exact ih hinv

/-- What is true with the first thing that was found, step by step. -/
theorem foldl_findSome? {α β γ : Type} {step : β → α → β} {find : α → Option γ}
    (Inv : β → Option γ → Prop) (h : ∀ b a found, Inv b found → Inv (step b a) (found.or (find a)))
    (as : List α) {b : β} {found : Option γ} (hb : Inv b found) :
    Inv (as.foldl step b) (found.or (as.findSome? find)) := by
  induction as generalizing b found with
  | nil =>
    rw [List.findSome?_nil, Option.or_none]
    exact hb
  | cons a as ih =>
    have hrest := ih (h b a found hb)
    rw [Option.or_assoc] at hrest
    rw [List.findSome?_cons]
    cases hfind : find a with
    | none =>
      rw [hfind, Option.none_or] at hrest
      exact hrest
    | some c =>
      rw [hfind, Option.some_or] at hrest
      exact hrest

theorem findSome?_ite {α γ : Type} (p : α → Bool) (c : γ) (as : List α) :
    as.findSome? (fun a => if p a then some c else none) = if as.any p then some c else none := by
  induction as with
  | nil => rfl
  | cons a as ih =>
    rw [List.findSome?_cons, List.any_cons]
    cases p a with
    | true => rfl
    | false => exact ih

/-! ## Resolvers of a draft -/

/-- A root has no resolver, or one for the data source and the URL with which it was created. -/
def Draft.Has (d : Draft) (root : Root) (created : Option (Nat × String)) : Prop :=
  Option.Rel (fun c r => r.IsFor root c.1 c.2) created (d.resolver? root)

namespace Draft

variable {d : Draft} {root other : Root} {created : Option (Nat × String)}

theorem Has.updateResolver (h : d.Has root created) {change : Resolver → Resolver}
    (hchange : ∀ r dataSource url, r.IsFor root dataSource url →
      (change r).IsFor root dataSource url) (changed : Root) :
    (d.updateResolver changed change).Has root created := by
  rw [Has, resolver?_updateResolver]
  by_cases heq : root = changed
  · rw [if_pos heq, ← heq]
    rw [Has] at h
    cases hr : d.resolver? root with
    | none =>
      rw [hr] at h
      exact h
    | some r =>
      rw [hr] at h
      cases h with
      | some hfor => exact .some (hchange r _ _ hfor)
  · rw [if_neg heq]
    exact h

/-- A resolver that is there stays, and another one is created. -/
theorem Has.ensureResolver (h : d.Has root created) (ensured : Root) (dataSource : Nat)
    (url : String) :
    (d.ensureResolver ensured dataSource url).Has root
      (created.or (if root = ensured then some (dataSource, url) else none)) := by
  rw [Has, resolver?_ensureResolver]
  by_cases heq : root = ensured
  · rw [if_pos heq, if_pos heq, ← heq]
    rw [Has] at h
    cases hr : d.resolver? root with
    | none =>
      rw [hr] at h
      cases h with
      | none => exact .some (.empty root dataSource url)
    | some r =>
      rw [hr] at h
      cases h with
      | some hfor => exact .some hfor
  · rw [if_neg heq, if_neg heq, Option.or_none]
    exact h

end Draft

/-! ## Walks -/

/-- The resolver of a root is as it was created, and a place that was looked up is that of its
arguments. -/
structure Filling.Fits (f : Filling) (root : Root) (created : Option (Nat × String)) : Prop where
  resolver : f.draft.Has root created
  slot : ∀ i, f.slots.get root = some i →
    i = 1 ∧ ∃ r, f.draft.resolver? root = some r ∧ r.IsOpen

namespace Filling

variable {f g : Filling} {root other : Root} {created : Option (Nat × String)} {dataSource : Nat}
  {url : String}

theorem Fits.of_state_eq (h : f.Fits root created) (he : g.state root = f.state root) :
    g.Fits root created := by
  have hr : g.draft.resolver? root = f.draft.resolver? root := congrArg Prod.fst he
  have hs : g.slots.get root = f.slots.get root := congrArg Prod.snd he
  refine ⟨?_, ?_⟩
  · rw [Draft.Has, hr]
    exact h.resolver
  · rw [hr, hs]
    exact h.slot

/-- Wherever the place of the arguments comes from, it is the second one and they are there. -/
theorem Fits.slot_eq (h : f.Fits root created) {r : Resolver}
    (hr : f.draft.resolver? root = some r) (hfor : r.IsFor root dataSource url) :
    (f.slot root r).1 = 1 ∧ (f.slot root r).2.IsFor root dataSource url ∧
      (f.slot root r).2.IsOpen := by
  rw [Filling.slot]
  cases hs : f.slots.get root with
  | none => exact hfor.argumentsSlot
  | some i =>
    obtain ⟨rfl, r', hr', hopen⟩ := h.slot i hs
    obtain rfl := Option.some.inj (hr'.symm.trans hr)
    exact ⟨rfl, hfor, hopen⟩

/-- The configuration of a field finds its place. -/
theorem addConfig?_eq (h : f.Fits root created) (field : FieldDefinition) :
    f.addConfig? root field = some (f.addConfig root field) ∧
      (f.addConfig root field).Fits root created := by
  cases hr : f.draft.resolver? root with
  | none =>
    rw [addConfig?, addConfig, hr]
    exact ⟨rfl, h⟩
  | some r =>
    have hrel := h.resolver
    rw [Draft.Has, hr] at hrel
    cases created with
    | none => cases hrel
    | some c =>
      have hfor : r.IsFor root c.1 c.2 := by
        cases hrel with
        | some hfor => exact hfor
      obtain ⟨hslot, hfor, hopen⟩ := h.slot_eq hr hfor
      obtain ⟨r', hadd, hopen⟩ :=
        hopen.addFieldConfig (Resolver.passOn field.name field.argumentNames)
      have hfor' := hfor.addFieldConfig 1 (Resolver.passOn field.name field.argumentNames)
      rw [hadd] at hfor'
      rw [addConfig?, addConfig, hr]
      simp only [hslot, hadd, Option.map_some, Option.getD_some, true_and]
      refine ⟨?_, fun i hi => ?_⟩
      · rw [Draft.Has, Draft.resolver?_setResolver, if_pos rfl]
        exact .some hfor'
      · rw [ByRoot.get_set, if_pos rfl] at hi
        refine ⟨(Option.some.inj hi).symm, r', ?_, hopen⟩
        rw [Draft.resolver?_setResolver, if_pos rfl]

theorem Fits.addName (h : f.Fits root created) (fieldName : String) :
    Fits { f with draft := f.draft.updateResolver root fun r => r.addField fieldName } root
      created := by
  refine ⟨h.resolver.updateResolver (fun r _ _ hfor => hfor.addField fieldName) root,
    fun i hi => ?_⟩
  obtain ⟨rfl, r, hr, hopen⟩ := h.slot i hi
  refine ⟨rfl, r.addField fieldName, ?_, hopen⟩
  rw [Draft.resolver?_updateResolver, if_pos rfl, hr]
  rfl

theorem addField?_eq (h : f.Fits root created) (field : FieldDefinition) :
    f.addField? root field = some (f.addField root field) ∧
      (f.addField root field).Fits root created := by
  rw [addField?, addField]
  exact foldlM_eq_some (fun g : Filling => g.Fits root created)
    (fun _ _ hg => addConfig?_eq hg field) field.arguments (h.addName field.name)

theorem Fits.ensureResolver (h : f.Fits root created) (dataSource : Nat) (url : String) :
    Fits { f with draft := f.draft.ensureResolver root dataSource url } root
      (created.or (some (dataSource, url))) := by
  have hresolver := h.resolver.ensureResolver root dataSource url
  rw [if_pos rfl] at hresolver
  refine ⟨hresolver, fun i hi => ?_⟩
  obtain ⟨rfl, r, hr, hopen⟩ := h.slot i hi
  refine ⟨rfl, r, ?_, hopen⟩
  rw [Draft.resolver?_ensureResolver, if_pos rfl, hr, Option.some_or]

/-- The fields of a definition, after the resolver was created if there was none. -/
theorem addFields?_eq (h : f.Fits root created) (dataSource : Nat) (url : String)
    (fields : List FieldDefinition) :
    f.addDefinition? dataSource url (.plain (.object root.name fields)) =
        some (f.addDefinition dataSource url (.plain (.object root.name fields))) ∧
      (f.addDefinition dataSource url (.plain (.object root.name fields))).Fits root
        (created.or (some (dataSource, url))) := by
  have hroot : Root.ofName? root.name = some root := (Root.ofName?_eq_some_iff _ _).mpr rfl
  rw [addDefinition?, addDefinition, hroot]
  exact foldlM_eq_some (fun g : Filling => g.Fits root (created.or (some (dataSource, url))))
    (fun _ field hg => addField?_eq hg field) fields (h.ensureResolver dataSource url)

/-- A definition creates the resolver of the root that it defines. -/
theorem Fits.addDefinition (h : f.Fits root created) (d : Definition) :
    (f.addDefinition dataSource url d).Fits root
      (created.or (if definesRoot root d then some (dataSource, url) else none)) := by
  cases hgiven : fieldsGiven? root d with
  | none =>
    rw [← isSome_fieldsGiven?, hgiven, if_neg Bool.noConfusion, Option.or_none]
    exact h.of_state_eq (state_addDefinition_of_none f hgiven)
  | some fields =>
    rw [← isSome_fieldsGiven?, hgiven, if_pos Option.isSome_some, definition_of_fieldsGiven? hgiven]
    exact (addFields?_eq h dataSource url fields).2

/-- A definition is taken in to its end. -/
theorem addDefinition?_eq (h : ∀ root, ∃ created, f.Fits root created) (d : Definition) :
    f.addDefinition? dataSource url d = some (f.addDefinition dataSource url d) := by
  match d with
  | .plain (.object name fields) =>
    cases hroot : Root.ofName? name with
    | none =>
      rw [addDefinition?, addDefinition, hroot]
    | some root =>
      obtain ⟨created, hfits⟩ := h root
      rw [(Root.ofName?_eq_some_iff name root).mp hroot]
      exact (addFields?_eq hfits dataSource url fields).1
  | .plain .schema | .plain (.scalar _) | .plain (.interface _ _) | .plain (.union _ _)
  | .plain (.enum _ _) | .plain (.input _ _) | .extension _ | .directive _ => rfl

end Filling

namespace Draft

variable {d : Draft} {root : Root} {created : Option (Nat × String)} {dataSource : Nat}
  {url : String}

/-- A draft at the beginning of a walk. -/
theorem fits_start (h : d.Has root created) : Filling.Fits { draft := d } root created :=
  ⟨h, fun i hi => by cases root <;> exact nomatch hi⟩

/-- A document creates the resolvers of the roots that it defines. -/
theorem Has.addResolvers (h : d.Has root created) (document : Document) :
    (d.addResolvers document dataSource url).Has root
      (created.or (if document.any (definesRoot root) then some (dataSource, url) else none)) := by
  have hwalk : (document.foldl (Filling.addDefinition dataSource url) { draft := d }).Fits root _ :=
    foldl_findSome? (fun f : Filling => f.Fits root)
      (fun _ definition _ hf => hf.addDefinition definition) document (fits_start h)
  rw [findSome?_ite] at hwalk
  exact hwalk.resolver

/-- A walk over a document comes to its end. -/
theorem addResolvers?_eq (h : ∀ root, ∃ created, d.Has root created) (document : Document) :
    d.addResolvers? document dataSource url = some (d.addResolvers document dataSource url) := by
  have hstep : ∀ (f : Filling) (definition : Definition), (∀ root, ∃ created, f.Fits root created) →
      f.addDefinition? dataSource url definition =
          some (f.addDefinition dataSource url definition) ∧
        ∀ root, ∃ created, (f.addDefinition dataSource url definition).Fits root created := by
    refine fun f definition hf => ⟨Filling.addDefinition?_eq hf definition, fun root => ?_⟩
    obtain ⟨created, hfits⟩ := hf root
    exact ⟨_, hfits.addDefinition definition⟩
  have hstart : ∀ root, ∃ created, Filling.Fits { draft := d } root created := by
    intro root
    obtain ⟨created, hhas⟩ := h root
    exact ⟨created, fits_start hhas⟩
  rw [addResolvers?, (foldlM_eq_some _ hstep document hstart).1]
  rfl

/-! ## Histories -/

/-- The data source that an operation creates. -/
def Operation.source? : Operation → Option DataSource
  | .addSource kind name url headers => some (.at kind name url headers)
  | _ => none

/-- The data source and the URL for which an operation creates the resolver of a root that has
none. -/
def Operation.creates? (root : Root) : Operation → Option (Nat × String)
  | .ensureResolver ensured dataSource url =>
    if root = ensured then some (dataSource, url) else none
  | .addResolvers document dataSource url =>
    if document.any (definesRoot root) then some (dataSource, url) else none
  | _ => none

theorem Has.addSource (h : d.Has root created) (kind : SourceKind) (name url : String)
    (headers : List (String × String)) :
    (d.addSource kind name url headers).2.Has root created := by
  cases root <;> exact h

/-- An operation creates at most the resolver that is not there. -/
theorem Has.apply (h : d.Has root created) (op : Operation) :
    (d.apply op).Has root (created.or (op.creates? root)) := by
  cases op with
  | ensureResolver ensured dataSource url => exact h.ensureResolver ensured dataSource url
  | addResolvers document dataSource url => exact h.addResolvers document
  | addSource kind name url headers =>
    show (d.addSource kind name url headers).2.Has root (created.or none)
    rw [Option.or_none]
    exact h.addSource kind name url headers
  | addField changed fieldName =>
    show (d.updateResolver changed _).Has root (created.or none)
    rw [Option.or_none]
    exact h.updateResolver (fun r _ _ hfor => hfor.addField fieldName) changed
  | openArguments changed =>
    show (d.updateResolver changed _).Has root (created.or none)
    rw [Option.or_none]
    exact h.updateResolver (fun r _ _ hfor => hfor.argumentsSlot.2.1) changed
  | addFieldConfig changed index fieldName argumentNames =>
    show (d.updateResolver changed _).Has root (created.or none)
    rw [Option.or_none]
    exact h.updateResolver (fun r _ _ hfor => hfor.addFieldConfig index _) changed

/-- After a history, the resolver of a root is the one of the first operation that creates it. -/
theorem has_after (ops : List Operation) (root : Root) :
    (after ops).Has root (ops.findSome? (·.creates? root)) := by
  have hstart : Draft.Has {} root none := by
    cases root <;> exact .none
  have hrun := foldl_findSome? (fun d : Draft => d.Has root) (fun _ op _ h => h.apply op) ops hstart
  rw [Option.none_or] at hrun
  exact hrun

example : (after [.openArguments .query, .ensureResolver .query 7 "http://a",
      .ensureResolver .query 8 "http://b"]).resolver? .query =
    some (.empty "Query" 7 "http://a") := by
  decide

/-- Only the creation of a data source changes more than resolvers. -/
theorem frame_apply (d : Draft) (op : Operation) :
    (d.apply op).frame = (d.dataSources ++ op.source?.toList, d.mappings) := by
  have hkept : d.frame = (d.dataSources ++ [], d.mappings) := by
    rw [List.append_nil]
    rfl
  cases op with
  | addSource kind name url headers => rfl
  | ensureResolver root dataSource url => exact (frame_ensureResolver ..).trans hkept
  | addResolvers document dataSource url => exact (frame_addResolvers ..).trans hkept
  | addField root fieldName => exact (frame_updateResolver ..).trans hkept
  | openArguments root => exact (frame_updateResolver ..).trans hkept
  | addFieldConfig root index fieldName argumentNames =>
    exact (frame_updateResolver ..).trans hkept

/-- The data sources are those that were created, in order, and there are no mappings. -/
theorem frame_after (ops : List Operation) :
    (after ops).frame = (ops.filterMap Operation.source?, []) := by
  have hrun : ∀ (ops : List Operation) (d : Draft),
      (ops.foldl apply d).frame =
        (d.dataSources ++ ops.filterMap Operation.source?, d.mappings) := by
    intro ops
    induction ops with
    | nil =>
      intro d
      rw [List.filterMap_nil, List.append_nil]
      rfl
    | cons op ops ih =>
      intro d
      have hsources : (d.apply op).dataSources = d.dataSources ++ op.source?.toList :=
        congrArg Prod.fst (frame_apply d op)
      have hmappings : (d.apply op).mappings = d.mappings := congrArg Prod.snd (frame_apply d op)
      rw [List.foldl_cons, ih, hsources, hmappings, List.append_assoc, List.filterMap_cons]
      cases op.source? <;> rfl
  exact hrun ops {}

theorem dataSources_after (ops : List Operation) :
    (after ops).dataSources = ops.filterMap Operation.source? :=
  congrArg Prod.fst (frame_after ops)

theorem mappings_after (ops : List Operation) : (after ops).mappings = [] :=
  congrArg Prod.snd (frame_after ops)

theorem filterMap_all (find : Root → Option Resolver) :
    Root.all.filterMap find = (find .query).toList ++ (find .mutation).toList := by
  rw [Root.all, List.filterMap_cons, List.filterMap_cons]
  cases find .query <;> cases find .mutation <;> rfl

/-- What there is to say about a draft after a history. -/
structure Kept (ops : List Operation) : Prop where
  /-- The place of a data source is the number of those before it, and it stays there. -/
  sources : ∀ before kind name url headers rest,
    ops = before ++ .addSource kind name url headers :: rest →
      ((after before).addSource kind name url headers).1 =
          (before.filterMap Operation.source?).length ∧
        (after ops).source? (before.filterMap Operation.source?).length =
          some (.at kind name url headers)
  /-- The resolver of a root is for the root and for what the first operation that creates it says,
  with the URL and perhaps arguments behind it as its attributes. -/
  resolvers : ∀ root, Option.Rel (fun c r => r.IsFor root c.1 c.2)
    (ops.findSome? (·.creates? root)) ((after ops).resolver? root)
  /-- No configuration of a field is lost on a walk over a document. -/
  walks : ∀ document dataSource url, (after ops).addResolvers? document dataSource url =
    some ((after ops).addResolvers document dataSource url)
  /-- The finished configuration. -/
  finished : (after ops).finish =
    { dataSources := ops.filterMap Operation.source?
      resolvers := ((after ops).resolver? .query).toList ++ ((after ops).resolver? .mutation).toList
      mappings := [] }

/-- What every draft keeps, whatever has been done with it. -/
theorem kept_after (ops : List Operation) : Kept ops where
  sources := by
    rintro before kind name url headers rest rfl
    refine ⟨congrArg List.length (dataSources_after before), ?_⟩
    rw [source?, dataSources_after, List.filterMap_append,
      List.getElem?_append_right (Nat.le_refl _), Nat.sub_self]
    rfl
  resolvers := has_after ops
  walks := fun document _ _ => addResolvers?_eq (fun root => ⟨_, has_after ops root⟩) document
  finished := by
    rw [finish, dataSources_after, mappings_after, filterMap_all]

end Draft

end ApiGraph.Engine
