import ApiGraph.GraphQL.Name
import ApiGraph.Proofs.Engine.Compilation
import Mathlib.Data.List.Nodup

/-!
# What an engine finds for a field

An engine looks the configuration of a field up by its name and takes the first one.  A resolver does
not see to it that there are no others: it takes every field as it comes.  If the fields have distinct
names, the configurations with the name of a field are the block that the field brought with it, one
for each argument and all the same.

* `exists_block`: the configurations of one field among those of all fields.
* `binds_ofSignatures`: the resolver for fields with distinct names.
-/

namespace ApiGraph.Engine

open ApiGraph.GraphQL (isName)

/-- The configurations of fields in all attributes. -/
def Resolver.configs (r : Resolver) : List FieldConfig :=
  r.attributes.flatMap fun a => (a.value.arguments?.map (·.fields)).getD []

/-- What an engine finds for a field. -/
def Resolver.lookUp? (r : Resolver) (fieldName : String) : Option FieldConfig :=
  r.arguments?.bind fun a => a.field? fieldName

/-- A resolver tells its fields and their arguments apart by their names. -/
structure Resolver.Binds (r : Resolver) (fields : List Signature) : Prop where
  fieldNames : r.fieldNames = fields.map (·.name)
  nodup : r.fieldNames.Nodup
  valid : ∀ name ∈ r.fieldNames, isName name = true
  /-- Every configuration is for a field. -/
  configs : ∀ config ∈ r.configs, config.fieldName ∈ r.fieldNames
  /-- The configurations for a field stand together, and they are as many as the arguments that each
  of them has. -/
  blocks : ∀ name ∈ r.fieldNames, ∃ before config after,
    r.configs = before ++ List.replicate config.arguments.length config ++ after ∧
      config.fieldName = name ∧ (config.arguments.map (·.name)).Nodup ∧
        ∀ other ∈ before ++ after, other.fieldName ≠ name
  /-- The arguments of a field are found, in order. -/
  lookUp : ∀ s ∈ fields, r.lookUp? s.name =
    if s.arguments = [] then none else some (Resolver.passOn s.name s.arguments)

variable {fields : List Signature}

theorem configs_eq_replicate (s : Signature) :
    s.configs = List.replicate s.arguments.length (Resolver.passOn s.name s.arguments) := rfl

theorem names_passOn (name : String) (arguments : List String) :
    (Resolver.passOn name arguments).arguments.map (·.name) = arguments := by
  rw [Resolver.passOn, List.map_map]
  exact List.map_id arguments

theorem length_passOn (name : String) (arguments : List String) :
    (Resolver.passOn name arguments).arguments.length = arguments.length :=
  List.length_map _

theorem exists_of_mem_configs {config : FieldConfig} (h : config ∈ fields.flatMap (·.configs)) :
    ∃ s ∈ fields, config.fieldName = s.name := by
  obtain ⟨s, hs, hconfig⟩ := List.mem_flatMap.mp h
  rw [configs_eq_replicate] at hconfig
  exact ⟨s, hs, congrArg FieldConfig.fieldName (List.eq_of_mem_replicate hconfig)⟩

/-- The configurations of one field among those of all fields. -/
theorem exists_block (h : (fields.map (·.name)).Nodup) {s : Signature} (hs : s ∈ fields) :
    ∃ before after, fields.flatMap (·.configs) = before ++ s.configs ++ after ∧
      ∀ other ∈ before ++ after, other.fieldName ≠ s.name := by
  obtain ⟨earlier, later, rfl⟩ := List.append_of_mem hs
  refine ⟨earlier.flatMap (·.configs), later.flatMap (·.configs), ?_, ?_⟩
  · rw [List.flatMap_append, List.flatMap_cons, List.append_assoc]
  · rw [List.map_append, List.map_cons, List.nodup_middle, List.nodup_cons, ← List.map_append] at h
    intro other hother heq
    rw [← List.flatMap_append] at hother
    obtain ⟨t, ht, hname⟩ := exists_of_mem_configs hother
    exact h.1 (List.mem_map.mpr ⟨t, ht, hname.symm.trans heq⟩)

/-- The first configuration with the name of a field is its own. -/
theorem find?_configs (h : (fields.map (·.name)).Nodup) {s : Signature} (hs : s ∈ fields) :
    (fields.flatMap (·.configs)).find? (fun config => config.fieldName == s.name) =
      if s.arguments = [] then none else some (Resolver.passOn s.name s.arguments) := by
  obtain ⟨before, after, hsplit, hothers⟩ := exists_block h hs
  have hnone : ∀ l ⊆ before ++ after,
      l.find? (fun config => config.fieldName == s.name) = none := by
    intro l hl
    refine List.find?_eq_none.mpr fun other hother heq => ?_
    exact hothers other (hl hother) (beq_iff_eq.mp heq)
  rw [hsplit, List.find?_append, List.find?_append, hnone before (List.subset_append_left ..),
    hnone after (List.subset_append_right ..), Option.none_or, Option.or_none, configs_eq_replicate]
  cases s.arguments with
  | nil => rfl
  | cons a as =>
    rw [if_neg (List.cons_ne_nil a as), List.length_cons, List.replicate_succ,
      List.find?_cons_of_pos]
    exact beq_self_eq_true s.name

/-- A resolver without an attribute for arguments has no configurations. -/
theorem configs_of_all_isEmpty (h : (fields.all fun s => s.arguments.isEmpty) = true) :
    fields.flatMap (·.configs) = [] := by
  refine List.flatMap_eq_nil_iff.mpr fun s hs => (configs_eq_nil_iff s).mpr ?_
  exact List.isEmpty_iff.mp (List.all_eq_true.mp h s hs)

theorem configs_ofSignatures (root : Root) (dataSource : Nat) (url : String)
    (fields : List Signature) :
    (Resolver.ofSignatures root dataSource url fields).configs = fields.flatMap (·.configs) := by
  rw [Resolver.ofSignatures, Resolver.configs]
  cases h : fields.all fun s => s.arguments.isEmpty with
  | true => exact (configs_of_all_isEmpty h).symm
  | false => exact List.append_nil _

theorem lookUp?_ofSignatures (root : Root) (dataSource : Nat) (url : String)
    (fields : List Signature) (name : String) :
    (Resolver.ofSignatures root dataSource url fields).lookUp? name =
      (fields.flatMap (·.configs)).find? fun config => config.fieldName == name := by
  rw [Resolver.ofSignatures, Resolver.lookUp?]
  cases h : fields.all fun s => s.arguments.isEmpty with
  | true =>
    rw [configs_of_all_isEmpty h]
    rfl
  | false => rfl

/-- The resolver for fields with distinct names, each of which has distinct arguments. -/
theorem binds_ofSignatures {root : Root} {dataSource : Nat} {url : String}
    (hnodup : (fields.map (·.name)).Nodup) (hvalid : ∀ s ∈ fields, isName s.name = true)
    (harguments : ∀ s ∈ fields, s.arguments.Nodup) :
    (Resolver.ofSignatures root dataSource url fields).Binds fields where
  fieldNames := rfl
  nodup := hnodup
  valid := List.forall_mem_map.mpr hvalid
  configs := by
    intro config hconfig
    rw [configs_ofSignatures] at hconfig
    obtain ⟨s, hs, hname⟩ := exists_of_mem_configs hconfig
    exact List.mem_map.mpr ⟨s, hs, hname.symm⟩
  blocks := by
    refine List.forall_mem_map.mpr fun s hs => ?_
    obtain ⟨before, after, hsplit, hothers⟩ := exists_block hnodup hs
    refine ⟨before, Resolver.passOn s.name s.arguments, after, ?_, rfl, ?_, hothers⟩
    · rw [configs_ofSignatures, hsplit, configs_eq_replicate, length_passOn]
    · rw [names_passOn]
      exact harguments s hs
  lookUp := by
    intro s hs
    rw [lookUp?_ofSignatures]
    exact find?_configs hnodup hs

example : (Resolver.ofSignatures .query 0 "http://pets"
      [⟨"count", []⟩, ⟨"pets", ["limit", "tag"]⟩]).lookUp? "pets" =
    some (Resolver.passOn "pets" ["limit", "tag"]) := by
  decide

end ApiGraph.Engine
