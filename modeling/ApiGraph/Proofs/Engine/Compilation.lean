import ApiGraph.Engine.Resolvers

/-!
# Configurations without a walk

`configurationFor` walks over a document and fills in resolvers as it meets definitions, fields and
arguments.  What it arrives at can be said at once: a resolver needs to know of a field only its
name and the names of its arguments, its *signature*, and the resolver of a root is a function of
the signatures of all its plain definitions, one behind the other.

The walk keeps two things for each root, the resolver and the place of its attribute for arguments.
`Filling.Holds` says what they are when some names and some field configurations have been added:
the attribute for arguments is there as soon as there is a configuration, and it is the second one.
One lemma for each step says how a step extends the two lists, and `Filling.state` says that it
leaves the other root alone.

* `holds_addConfig`, `holds_addField`, `holds_addFields`, `holds_addDefinition`: the steps.
* `resolver?_foldl_addDefinition`: the resolver of a root after the definitions of a document.
* `configurationFor_eq_ofSignatures`: the configuration of every document.
* `configurationFor_eq`: the same, definition by definition.
-/

namespace ApiGraph.Engine

open ApiGraph.GraphQL.Sdl (Definition Document FieldDefinition)

/-! ## Signatures -/

/-- What a resolver has to know of a field. -/
structure Signature where
  name : String
  arguments : List String
  deriving DecidableEq, Repr

/-- The configurations of a field: for each of its arguments one that has all of them. -/
def Signature.configs (s : Signature) : List FieldConfig :=
  List.replicate s.arguments.length
    { fieldName := s.name
      arguments := s.arguments.map fun a => ⟨a, .fieldArgument, none⟩ }

/-- The resolver of a root with these fields. -/
def Resolver.ofSignatures (root : Root) (dataSource : Nat) (url : String)
    (fields : List Signature) : Resolver :=
  { typeName := root.name
    dataSource
    fieldNames := fields.map (·.name)
    attributes :=
      if fields.all fun s => s.arguments.isEmpty then [.url url]
      else [.url url, .arguments { fields := fields.flatMap (·.configs) }] }

/-- A configuration with one data source.  A root has a resolver if it has a list of fields, even an
empty one. -/
def Configuration.ofSignatures (name url : String) (headers : List (String × String))
    (fields : Root → Option (List Signature)) : Configuration :=
  let merged : Headers := Dictionary.ofPairs headers
  { dataSources :=
      [{ kind := .graphql, name
         attributes := .url url :: if merged = [] then [] else [.headers merged] }]
    resolvers := [Root.query, Root.mutation].filterMap fun root =>
      (fields root).map (Resolver.ofSignatures root 0 url)
    mappings := [] }

/-- The signature of a field in a document. -/
def signatureOf (f : FieldDefinition) : Signature :=
  { name := f.name, arguments := f.argumentNames }

/-- The fields that a definition gives to a root.  An extension gives none. -/
def fieldsGiven? (root : Root) : Definition → Option (List FieldDefinition)
  | .plain (.object name fields) => if name = root.name then some fields else none
  | _ => none

/-- The fields of a root in a document, if a definition gives it any. -/
def fieldsIn? (root : Root) (document : Document) : Option (List FieldDefinition) :=
  match document.filterMap (fieldsGiven? root) with
  | [] => none
  | given => some given.flatten

/-- The signatures of a root in a document. -/
def signaturesIn? (document : Document) (root : Root) : Option (List Signature) :=
  (fieldsIn? root document).map fun fields => fields.map signatureOf

/-! ## Resolvers on the way -/

/-- A resolver to which some field names and some configurations have been added. -/
def Resolver.holding (root : Root) (dataSource : Nat) (url : String) (names : List String)
    (configs : List FieldConfig) : Resolver :=
  { typeName := root.name
    dataSource
    fieldNames := names
    attributes := .url url :: if configs = [] then [] else [.arguments { fields := configs }] }

theorem empty_eq_holding (root : Root) (dataSource : Nat) (url : String) :
    Resolver.empty root.name dataSource url = .holding root dataSource url [] [] := rfl

theorem configs_eq_nil_iff (s : Signature) : s.configs = [] ↔ s.arguments = [] := by
  rw [Signature.configs, List.replicate_eq_nil_iff, List.length_eq_zero_iff]

theorem holding_eq_ofSignatures (root : Root) (dataSource : Nat) (url : String)
    (fields : List Signature) :
    Resolver.holding root dataSource url (fields.map (·.name)) (fields.flatMap (·.configs)) =
      .ofSignatures root dataSource url fields := by
  have hnil : fields.flatMap (·.configs) = [] ↔
      (fields.all fun s => s.arguments.isEmpty) = true := by
    simp only [List.flatMap_eq_nil_iff, configs_eq_nil_iff, List.all_eq_true,
      List.isEmpty_iff]
  by_cases h : fields.flatMap (·.configs) = []
  · have hall := hnil.mp h
    simp only [Resolver.holding, Resolver.ofSignatures, h, hall, if_true]
  · have hall := mt hnil.mpr h
    simp only [Resolver.holding, Resolver.ofSignatures, h, hall, if_false, Bool.false_eq_true]

/-- The resolver with its attribute for arguments, also if nothing is in it. -/
def Resolver.opened (root : Root) (dataSource : Nat) (url : String) (names : List String)
    (configs : List FieldConfig) : Resolver :=
  { Resolver.holding root dataSource url names configs with
    attributes := [.url url, .arguments { fields := configs }] }

theorem argumentsSlot_holding (root : Root) (dataSource : Nat) (url : String)
    (names : List String) (configs : List FieldConfig) :
    (Resolver.holding root dataSource url names configs).argumentsSlot =
      (1, .opened root dataSource url names configs) := by
  by_cases h : configs = []
  · subst h
    rfl
  · simp only [Resolver.argumentsSlot, Resolver.holding, Resolver.opened, h, if_false]
    rfl

theorem holding_eq_opened (root : Root) (dataSource : Nat) (url : String) (names : List String)
    {configs : List FieldConfig} (h : configs ≠ []) :
    Resolver.holding root dataSource url names configs =
      .opened root dataSource url names configs := by
  simp only [Resolver.holding, Resolver.opened, h, if_false]

theorem addFieldConfig_opened (root : Root) (dataSource : Nat) (url : String)
    (names : List String) (configs : List FieldConfig) (config : FieldConfig) :
    (Resolver.opened root dataSource url names configs).addFieldConfig 1 config =
      some (.holding root dataSource url names (configs ++ [config])) := by
  rw [holding_eq_opened root dataSource url names (List.append_ne_nil_of_right_ne_nil _ (by simp))]
  rfl

/-! ## What the walk keeps for a root -/

/-- What a filling knows about a root. -/
def Filling.state (f : Filling) (root : Root) : Option Resolver × Option Nat :=
  (f.draft.resolver? root, f.slots.get root)

/-- The root has a resolver with these names and configurations, and a place that was looked up is
that of its attribute for arguments. -/
structure Filling.Holds (f : Filling) (root : Root) (dataSource : Nat) (url : String)
    (names : List String) (configs : List FieldConfig) : Prop where
  resolver : f.draft.resolver? root = some (.holding root dataSource url names configs)
  slot : ∀ i, f.slots.get root = some i → i = 1 ∧ configs ≠ []

variable {f : Filling} {root other : Root} {dataSource : Nat} {url : String}
  {names : List String} {configs : List FieldConfig} {given : Option (List FieldDefinition)}

theorem Filling.Holds.slot_eq (h : f.Holds root dataSource url names configs) :
    f.slot root (.holding root dataSource url names configs) =
      (1, .opened root dataSource url names configs) := by
  rw [Filling.slot]
  cases hs : f.slots.get root with
  | none => exact argumentsSlot_holding root dataSource url names configs
  | some i =>
    obtain ⟨rfl, hne⟩ := h.slot i hs
    rw [holding_eq_opened root dataSource url names hne]

theorem holds_addConfig (h : f.Holds root dataSource url names configs)
    (field : FieldDefinition) :
    (f.addConfig root field).Holds root dataSource url names
      (configs ++ [Resolver.passOn field.name field.argumentNames]) := by
  have hadd : f.addConfig root field =
      { draft := f.draft.setResolver root (.holding root dataSource url names
          (configs ++ [Resolver.passOn field.name field.argumentNames]))
        slots := f.slots.set root (some 1) } := by
    simp only [Filling.addConfig, h.resolver, h.slot_eq, addFieldConfig_opened, Option.getD_some]
  rw [hadd]
  refine ⟨by simp, fun i hi => ?_⟩
  simp only [ByRoot.get_set, if_true, Option.some.injEq] at hi
  exact ⟨hi.symm, List.append_ne_nil_of_right_ne_nil _ (by simp)⟩

theorem state_addConfig_of_ne (f : Filling) (field : FieldDefinition) (hne : other ≠ root) :
    (f.addConfig root field).state other = f.state other := by
  rw [Filling.addConfig]
  cases f.draft.resolver? root with
  | none => rfl
  | some r => simp [Filling.state, hne]

/-- A field with `n` arguments adds its configuration `n` times, whatever the arguments are. -/
theorem holds_foldl_addConfig {α : Type} (as : List α) (field : FieldDefinition) :
    ∀ {f : Filling} {configs : List FieldConfig}, f.Holds root dataSource url names configs →
      (as.foldl (fun f _ => f.addConfig root field) f).Holds root dataSource url names
        (configs ++ List.replicate as.length
          (Resolver.passOn field.name field.argumentNames)) := by
  induction as with
  | nil =>
    intro f configs h
    simpa using h
  | cons a as ih =>
    intro f configs h
    have hstep := ih (holds_addConfig h field)
    rw [List.append_assoc, List.singleton_append, ← List.replicate_succ] at hstep
    exact hstep

theorem state_foldl_addConfig_of_ne {α : Type} (as : List α) (field : FieldDefinition)
    (hne : other ≠ root) :
    ∀ f : Filling,
      (as.foldl (fun f _ => f.addConfig root field) f).state other = f.state other := by
  induction as with
  | nil => exact fun _ => rfl
  | cons a as ih =>
    intro f
    rw [List.foldl_cons, ih, state_addConfig_of_ne f field hne]

theorem configs_signatureOf (field : FieldDefinition) :
    (signatureOf field).configs =
      List.replicate field.arguments.length (Resolver.passOn field.name field.argumentNames) := by
  rw [Signature.configs, signatureOf, FieldDefinition.argumentNames, List.length_map]
  rfl

theorem holds_addField (h : f.Holds root dataSource url names configs)
    (field : FieldDefinition) :
    (f.addField root field).Holds root dataSource url (names ++ [field.name])
      (configs ++ (signatureOf field).configs) := by
  rw [configs_signatureOf, Filling.addField]
  refine holds_foldl_addConfig field.arguments field ⟨?_, h.slot⟩
  simp only [Draft.updateResolver, h.resolver, Draft.resolver?_setResolver, if_true]
  rfl

theorem state_addField_of_ne (f : Filling) (field : FieldDefinition) (hne : other ≠ root) :
    (f.addField root field).state other = f.state other := by
  rw [Filling.addField, state_foldl_addConfig_of_ne field.arguments field hne, Filling.state,
    Draft.resolver?_updateResolver, if_neg hne]
  rfl

theorem holds_addFields (fields : List FieldDefinition) :
    ∀ {f : Filling} {names : List String} {configs : List FieldConfig},
      f.Holds root dataSource url names configs →
      (fields.foldl (fun f field => f.addField root field) f).Holds root dataSource url
        (names ++ fields.map (·.name))
        (configs ++ fields.flatMap fun field => (signatureOf field).configs) := by
  induction fields with
  | nil =>
    intro f names configs h
    simpa using h
  | cons field fields ih =>
    intro f names configs h
    have hstep := ih (holds_addField h field)
    rw [List.append_assoc, List.append_assoc] at hstep
    exact hstep

theorem state_addFields_of_ne (fields : List FieldDefinition) (hne : other ≠ root) :
    ∀ f : Filling,
      (fields.foldl (fun f field => f.addField root field) f).state other = f.state other := by
  induction fields with
  | nil => exact fun _ => rfl
  | cons field fields ih =>
    intro f
    rw [List.foldl_cons, ih, state_addField_of_ne f field hne]

/-! ## Definitions and documents -/

/-- What a filling has for a root to which a document has given some fields, or none at all. -/
def Filling.Has (f : Filling) (root : Root) (dataSource : Nat) (url : String) :
    Option (List FieldDefinition) → Prop
  | none => f.state root = (none, none)
  | some fields => f.Holds root dataSource url (fields.map (·.name))
      (fields.flatMap fun field => (signatureOf field).configs)

theorem Root.ofName?_eq_some_iff (name : String) (root : Root) :
    Root.ofName? name = some root ↔ name = root.name := by
  unfold Root.ofName?
  by_cases hq : name = "Query"
  · subst hq
    cases root <;> simp [Root.name]
  · by_cases hm : name = "Mutation"
    · subst hm
      cases root <;> simp [Root.name]
    · cases root <;> simp [Root.name, hq, hm]

theorem Filling.Has.ensureResolver
    (h : f.Has root dataSource url given) :
    Filling.Has { f with draft := f.draft.ensureResolver root dataSource url } root dataSource url
      (some (given.getD [])) := by
  cases given with
  | none =>
    have hr : f.draft.resolver? root = none := congrArg Prod.fst h
    have hs : f.slots.get root = none := congrArg Prod.snd h
    refine ⟨?_, fun i hi => ?_⟩
    · simp only [Draft.ensureResolver, hr, Draft.resolver?_setResolver, if_true]
      exact congrArg some (empty_eq_holding root dataSource url)
    · rw [hs] at hi
      exact absurd hi (by simp)
  | some fields =>
    have hr : f.draft.resolver? root = some _ := Filling.Holds.resolver h
    rw [Draft.ensureResolver, hr]
    exact h

theorem state_ensureResolver_of_ne (f : Filling) (hne : other ≠ root) :
    Filling.state { f with draft := f.draft.ensureResolver root dataSource url } other =
      f.state other := by
  rw [Filling.state, Draft.resolver?_ensureResolver, if_neg hne]
  rfl

/-- A definition of the root adds its fields to those that are there. -/
theorem has_addDefinition_object (h : f.Has root dataSource url given)
    (fields : List FieldDefinition) :
    (f.addDefinition dataSource url (.plain (.object root.name fields))).Has root dataSource url
      (some (given.getD [] ++ fields)) := by
  have hroot : Root.ofName? root.name = some root := (Root.ofName?_eq_some_iff _ _).mpr rfl
  have hadd := holds_addFields fields (Filling.Has.ensureResolver h)
  rw [← List.map_append, ← List.flatMap_append] at hadd
  rw [Filling.addDefinition, hroot]
  exact hadd

/-- A definition that gives the root nothing leaves the root alone. -/
theorem state_addDefinition_of_none (f : Filling) {d : Definition}
    (h : fieldsGiven? root d = none) :
    (f.addDefinition dataSource url d).state root = f.state root := by
  match d with
  | .plain (.object name fields) =>
    have hname : name ≠ root.name := by
      intro he
      rw [fieldsGiven?, if_pos he] at h
      exact absurd h (by simp)
    rw [Filling.addDefinition]
    cases hr : Root.ofName? name with
    | none => rfl
    | some found =>
      have hne : root ≠ found := by
        rintro rfl
        exact hname ((Root.ofName?_eq_some_iff name root).mp hr)
      rw [state_addFields_of_ne fields hne, state_ensureResolver_of_ne f hne]
  | .plain .schema | .plain (.scalar _) | .plain (.interface _ _) | .plain (.union _ _)
  | .plain (.enum _ _) | .plain (.input _ _) | .extension _ | .directive _ => rfl

theorem Filling.Has.of_state_eq {g : Filling} (h : f.Has root dataSource url given)
    (he : g.state root = f.state root) : g.Has root dataSource url given := by
  have hr : g.draft.resolver? root = f.draft.resolver? root := congrArg Prod.fst he
  have hs : g.slots.get root = f.slots.get root := congrArg Prod.snd he
  cases given with
  | none => exact he.trans h
  | some fields =>
    refine ⟨hr.trans h.resolver, ?_⟩
    rw [hs]
    exact h.slot

theorem definition_of_fieldsGiven? {d : Definition} {fields : List FieldDefinition}
    (h : fieldsGiven? root d = some fields) : d = .plain (.object root.name fields) := by
  match d with
  | .plain (.object name ownFields) =>
    obtain ⟨rfl, hfields⟩ := Option.ite_none_right_eq_some.mp h
    rw [Option.some.inj hfields]
  | .plain .schema | .plain (.scalar _) | .plain (.interface _ _) | .plain (.union _ _)
  | .plain (.enum _ _) | .plain (.input _ _) | .extension _ | .directive _ => exact nomatch h

/-- One definition after what came before it. -/
theorem has_addDefinition (h : f.Has root dataSource url given) (d : Definition) :
    (f.addDefinition dataSource url d).Has root dataSource url
      (given.merge (· ++ ·) (fieldsGiven? root d)) := by
  cases hd : fieldsGiven? root d with
  | none =>
    rw [Option.merge_none_right]
    exact h.of_state_eq (state_addDefinition_of_none f hd)
  | some fields =>
    rw [definition_of_fieldsGiven? hd]
    have hadd := has_addDefinition_object h fields
    cases given with
    | none => exact hadd
    | some before => exact hadd

theorem fieldsIn?_cons (root : Root) (d : Definition) (document : Document) :
    fieldsIn? root (d :: document) =
      (fieldsGiven? root d).merge (· ++ ·) (fieldsIn? root document) := by
  cases hd : fieldsGiven? root d with
  | none => rw [Option.merge_none_left, fieldsIn?, List.filterMap_cons_none hd, fieldsIn?]
  | some fields =>
    rw [fieldsIn?, List.filterMap_cons_some hd, fieldsIn?]
    cases document.filterMap (fieldsGiven? root) with
    | nil => simp
    | cons first rest => simp

/-- The definitions of a document, one after the other. -/
theorem has_foldl_addDefinition (document : Document) :
    ∀ {f : Filling} {given : Option (List FieldDefinition)}, f.Has root dataSource url given →
      (document.foldl (Filling.addDefinition dataSource url) f).Has root dataSource url
        (given.merge (· ++ ·) (fieldsIn? root document)) := by
  induction document with
  | nil =>
    intro f given h
    rw [fieldsIn?, List.filterMap_nil, Option.merge_none_right]
    exact h
  | cons d document ih =>
    intro f given h
    have hstep := ih (has_addDefinition h d)
    have hassoc := (Option.associative_merge (α := List FieldDefinition) (· ++ ·)).assoc given
      (fieldsGiven? root d) (fieldsIn? root document)
    rw [hassoc, ← fieldsIn?_cons] at hstep
    exact hstep

theorem resolver?_foldl_addDefinition (document : Document) (d : Draft)
    (hnone : d.resolver? root = none) :
    (d.addResolvers document dataSource url).resolver? root =
      (signaturesIn? document root).map (.ofSignatures root dataSource url) := by
  have hstart : Filling.Has { draft := d } root dataSource url none := by
    cases root <;> exact Prod.ext hnone rfl
  have hend := has_foldl_addDefinition document hstart
  rw [Option.merge_none_left] at hend
  rw [Draft.addResolvers, signaturesIn?]
  cases hf : fieldsIn? root document with
  | none =>
    rw [hf] at hend
    exact congrArg Prod.fst hend
  | some fields =>
    rw [hf] at hend
    rw [hend.resolver]
    simp only [Option.map_some, ← holding_eq_ofSignatures, List.map_map, List.flatMap_map]
    rfl

/-! ## What a walk leaves alone -/

/-- What a draft has apart from its resolvers. -/
def Draft.frame (d : Draft) : List DataSource × List Mapping :=
  (d.dataSources, d.mappings)

@[simp] theorem Draft.frame_setResolver (d : Draft) (root : Root) (r : Resolver) :
    (d.setResolver root r).frame = d.frame := by
  simp [Draft.frame]

theorem frame_updateResolver (d : Draft) (root : Root) (change : Resolver → Resolver) :
    (d.updateResolver root change).frame = d.frame := by
  rw [Draft.updateResolver]
  cases d.resolver? root with
  | none => rfl
  | some r => exact Draft.frame_setResolver ..

theorem frame_ensureResolver (d : Draft) (root : Root) (dataSource : Nat) (url : String) :
    (d.ensureResolver root dataSource url).frame = d.frame := by
  rw [Draft.ensureResolver]
  cases d.resolver? root with
  | none => exact Draft.frame_setResolver ..
  | some r => rfl

theorem frame_addConfig (f : Filling) (root : Root) (field : FieldDefinition) :
    (f.addConfig root field).draft.frame = f.draft.frame := by
  rw [Filling.addConfig]
  cases f.draft.resolver? root with
  | none => rfl
  | some r => exact Draft.frame_setResolver ..

theorem foldl_view_eq {α β γ : Type} (view : β → γ) (step : β → α → β)
    (h : ∀ b a, view (step b a) = view b) (as : List α) (b : β) :
    view (as.foldl step b) = view b := by
  induction as generalizing b with
  | nil => rfl
  | cons a as ih => rw [List.foldl_cons, ih, h]

theorem frame_addField (f : Filling) (root : Root) (field : FieldDefinition) :
    (f.addField root field).draft.frame = f.draft.frame := by
  rw [Filling.addField, foldl_view_eq (fun f : Filling => f.draft.frame) _
    (fun g _ => frame_addConfig g root field)]
  exact frame_updateResolver ..

theorem frame_addDefinition (f : Filling) (d : Definition) :
    (f.addDefinition dataSource url d).draft.frame = f.draft.frame := by
  match d with
  | .plain (.object name fields) =>
    rw [Filling.addDefinition]
    cases Root.ofName? name with
    | none => rfl
    | some root =>
      rw [foldl_view_eq (fun f : Filling => f.draft.frame) _
        (fun g field => frame_addField g root field)]
      exact frame_ensureResolver ..
  | .plain .schema | .plain (.scalar _) | .plain (.interface _ _) | .plain (.union _ _)
  | .plain (.enum _ _) | .plain (.input _ _) | .extension _ | .directive _ => rfl

theorem frame_addResolvers (d : Draft) (document : Document) (dataSource : Nat) (url : String) :
    (d.addResolvers document dataSource url).frame = d.frame :=
  foldl_view_eq (fun f : Filling => f.draft.frame) _ frame_addDefinition document
    { draft := d }

/-! ## The configuration of a document -/

/-- The draft with which `configurationFor` begins. -/
theorem resolver?_addSource (kind : SourceKind) (name url : String)
    (headers : List (String × String)) (root : Root) :
    (Draft.addSource {} kind name url headers).2.resolver? root = none := by
  cases root <;> rfl

/-- The configuration of every document is that of the signatures of its roots. -/
theorem configurationFor_eq_ofSignatures (document : Document) (name url : String)
    (headers : List (String × String)) :
    configurationFor document name url headers =
      .ofSignatures name url headers (signaturesIn? document) := by
  have hframe := frame_addResolvers (Draft.addSource {} .graphql name url headers).2 document 0 url
  have hsources := congrArg Prod.fst hframe
  have hmappings := congrArg Prod.snd hframe
  rw [configurationFor, Configuration.ofSignatures]
  simp only [Draft.finish, Configuration.mk.injEq]
  refine ⟨hsources.trans ?_, ?_, hmappings⟩
  · cases hm : Dictionary.ofPairs headers <;>
      simp [Draft.frame, Draft.addSource, DataSource.at, hm]
  · exact congrArg (List.filterMap · Root.all) (funext fun root =>
      resolver?_foldl_addDefinition document _ (resolver?_addSource .graphql name url headers root))

/-! ## Definition by definition -/

/-- Is it a plain definition of an object type with the name of the root? -/
def definesRoot (root : Root) : Definition → Bool
  | .plain (.object name _) => name == root.name
  | _ => false

/-- The fields of the root in its definitions, one behind the other. -/
def definedFields (root : Root) (document : Document) : List FieldDefinition :=
  document.flatMap fun d => (fieldsGiven? root d).getD []

theorem isSome_fieldsGiven? (root : Root) (d : Definition) :
    (fieldsGiven? root d).isSome = definesRoot root d := by
  match d with
  | .plain (.object name fields) =>
    rw [fieldsGiven?, definesRoot]
    by_cases h : name = root.name
    · rw [if_pos h, beq_iff_eq.mpr h, Option.isSome_some]
    · rw [if_neg h, beq_eq_false_iff_ne.mpr h, Option.isSome_none]
  | .plain .schema | .plain (.scalar _) | .plain (.interface _ _) | .plain (.union _ _)
  | .plain (.enum _ _) | .plain (.input _ _) | .extension _ | .directive _ => rfl

theorem flatten_filterMap_fieldsGiven? (root : Root) (document : Document) :
    (document.filterMap (fieldsGiven? root)).flatten = definedFields root document := by
  induction document with
  | nil => rfl
  | cons d document ih =>
    rw [definedFields, List.flatMap_cons, List.filterMap_cons]
    cases fieldsGiven? root d with
    | none => exact ih
    | some fields => exact congrArg (fields ++ ·) ih

theorem any_definesRoot (root : Root) (document : Document) :
    document.any (definesRoot root) = !(document.filterMap (fieldsGiven? root)).isEmpty := by
  induction document with
  | nil => rfl
  | cons d document ih =>
    rw [List.any_cons, ← isSome_fieldsGiven?, List.filterMap_cons, ih]
    cases fieldsGiven? root d <;> rfl

theorem fieldsIn?_eq (root : Root) (document : Document) :
    fieldsIn? root document =
      if document.any (definesRoot root) then some (definedFields root document) else none := by
  rw [fieldsIn?, any_definesRoot, ← flatten_filterMap_fieldsGiven?]
  cases document.filterMap (fieldsGiven? root) <;> rfl

/-- The configurations of a field in a document, one for each of its arguments. -/
def configsOf (f : FieldDefinition) : List FieldConfig :=
  List.replicate f.arguments.length
    { fieldName := f.name
      arguments := f.arguments.map fun a => ⟨a.name, .fieldArgument, none⟩ }

theorem configs_eq_configsOf (f : FieldDefinition) : (signatureOf f).configs = configsOf f := by
  simp [Signature.configs, signatureOf, configsOf, FieldDefinition.argumentNames]

theorem ofSignatures_map_signatureOf (root : Root) (dataSource : Nat) (url : String)
    (fields : List FieldDefinition) :
    Resolver.ofSignatures root dataSource url (fields.map signatureOf) =
      { typeName := root.name
        dataSource
        fieldNames := fields.map (·.name)
        attributes :=
          if fields.all fun f => f.arguments.isEmpty then [.url url]
          else [.url url, .arguments { fields := fields.flatMap configsOf }] } := by
  have hnames : (fields.map signatureOf).map (·.name) = fields.map (·.name) := by
    rw [List.map_map]
    rfl
  have hempty : ((fields.map signatureOf).all fun s => s.arguments.isEmpty) =
      fields.all fun f => f.arguments.isEmpty := by
    rw [List.all_map]
    simp [Function.comp_def, signatureOf, FieldDefinition.argumentNames]
  have hconfigs : (fields.map signatureOf).flatMap (·.configs) = fields.flatMap configsOf := by
    rw [List.flatMap_map]
    simp only [configs_eq_configsOf]
  rw [Resolver.ofSignatures, hnames, hempty, hconfigs]

/-- What the walk over a document arrives at: one data source, and a resolver for each root that a
plain definition defines, with the fields of all these definitions. -/
theorem configurationFor_eq (document : Document) (name url : String)
    (headers : List (String × String)) :
    configurationFor document name url headers =
      { dataSources :=
          [{ kind := .graphql, name
             attributes := .url url ::
               if Dictionary.ofPairs headers = [] then []
               else [.headers (Dictionary.ofPairs headers)] }]
        resolvers := [Root.query, Root.mutation].filterMap fun root =>
          if document.any (definesRoot root) then
            some
              { typeName := root.name
                dataSource := 0
                fieldNames := (definedFields root document).map (·.name)
                attributes :=
                  if (definedFields root document).all fun f => f.arguments.isEmpty then [.url url]
                  else [.url url,
                    .arguments { fields := (definedFields root document).flatMap configsOf }] }
          else none
        mappings := [] } := by
  rw [configurationFor_eq_ofSignatures, Configuration.ofSignatures]
  refine congrArg (Configuration.mk _ · _) (congrArg (List.filterMap · _) (funext fun root => ?_))
  rw [signaturesIn?, fieldsIn?_eq]
  split
  · exact congrArg some (ofSignatures_map_signatureOf root 0 url _)
  · rfl

end ApiGraph.Engine
