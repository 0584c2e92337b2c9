import ApiGraph.Engine.Configuration.Reader
import ApiGraph.Engine.Configuration.Writer
import ApiGraph.Json.Printer
import ApiGraph.Proofs.Dictionary
import ApiGraph.Proofs.Json.RoundTrip

/-!
# Configurations that are read back

A configuration is written as JSON text and read from it.  The text tells an attribute value by its
shape alone: header fields and arguments are both objects, and header fields may be named `fields`
as well, but never hold a list.

A configuration comes back if its header fields are distinct and its indices are 64-bit numbers
(`Configuration.Representable`).  Nothing else is ever read.

* `readsBack_list`, `fields?_present`: lists and records.
* `readsBack_attributeValue`: strings, arguments and header fields are told apart.
* `readsBack_configuration`, `representable_of_configuration?`: what is written is read, and what is
  read can be written.
* `read?_toJson_iff`: the configurations that come back from their text.
-/

namespace ApiGraph.Engine

open ApiGraph.Json (Tree treesOfItems? treesOfMembers?)
open ApiGraph.Decimal (inSigned inUnsigned pow2)

/-! ## What a configuration can hold -/

/-- Header fields are distinct. -/
def AttributeValue.Representable : AttributeValue → Prop
  | .headers h => (Dictionary.keys h).Nodup
  | _ => True

/-- The header fields of each attribute are distinct, and each data source that a resolver uses has
a 64-bit index. -/
structure Configuration.Representable (c : Configuration) : Prop where
  sources : ∀ d ∈ c.dataSources, ∀ a ∈ d.attributes, a.value.Representable
  resolvers : ∀ r ∈ c.resolvers, ∀ a ∈ r.attributes, a.value.Representable
  indices : ∀ r ∈ c.resolvers, r.dataSource < pow2 64

/-- What is read from what is written is the same. -/
def ReadsBack {α : Type} (write : α → Json) (read : Tree → Option α) (a : α) : Prop :=
  ∃ t, Tree.ofJson? (write a) = some t ∧ read t = some a

/-! ## Lists and records -/

section

variable {α : Type} {write : α → Json} {read : Tree → Option α}

theorem readsBack_string (s : String) : ReadsBack .string Reader.string? s :=
  ⟨.string (some s), rfl, rfl⟩

theorem readsBack_list {as : List α} (h : ∀ a ∈ as, ReadsBack write read a) :
    ReadsBack (fun as => .array (as.map write)) (Reader.list? read) as := by
  have hitems : ∃ ts, treesOfItems? (as.map write) = some ts ∧ ts.mapM read = some as := by
    induction as with
    | nil => exact ⟨[], rfl, rfl⟩
    | cons a as ih =>
      obtain ⟨t, ht, hread⟩ := h a List.mem_cons_self
      obtain ⟨ts, hts, hreads⟩ := ih fun b hb => h b (List.mem_cons_of_mem a hb)
      refine ⟨t :: ts, ?_, ?_⟩
      · rw [List.map_cons, treesOfItems?, ht, hts]
        rfl
      · rw [List.mapM_cons, hread, hreads]
        rfl
  obtain ⟨ts, hts, hreads⟩ := hitems
  exact ⟨.array ts, congrArg (Option.map Tree.array) hts, hreads⟩

theorem readsBack_strings (ss : List String) :
    ReadsBack jsonOfStrings (Reader.list? Reader.string?) ss :=
  readsBack_list fun s _ => readsBack_string s

/-- Every item of a list that is read is read from a tree. -/
theorem exists_of_list? {t : Tree} {as : List α} (h : Reader.list? read t = some as) :
    ∀ a ∈ as, ∃ t, read t = some a := by
  cases t with
  | array items =>
    replace h : items.mapM read = some as := h
    induction items generalizing as with
    | nil =>
      obtain rfl := Option.some.inj h
      exact fun _ ha => nomatch ha
    | cons t ts ih =>
      simp only [List.mapM_cons, Option.bind_eq_bind, Option.pure_def, Option.bind_eq_some_iff,
        Option.some.injEq] at h
      obtain ⟨a, ha, as, has, rfl⟩ := h
      intro b hb
      rcases List.mem_cons.mp hb with rfl | hb
      · exact ⟨t, ha⟩
      · exact ih has b hb
  | _ => exact nomatch h

/-- The fields of a record that are written. -/
def written (fields : List (String × Option Json)) : List (String × Json) :=
  fields.filterMap fun f => f.2.map fun j => (f.1, j)

/-- The fields of a record that are there to be read. -/
def present (fields : List (String × Option Tree)) : List (Option String × Tree) :=
  fields.filterMap fun f => f.2.map fun t => (some f.1, t)

/-- A field that is written as a tree, or a field that is absent. -/
def SaysField (j : Option Json) (t : Option Tree) : Prop :=
  j.map Tree.ofJson? = t.map some

theorem SaysField.of {j : Json} {t : Tree} (h : Tree.ofJson? j = some t) :
    SaysField (some j) (some t) :=
  congrArg some h

theorem present_cons (key : String) (o : Option Tree) (fields : List (String × Option Tree)) :
    present ((key, o) :: fields) = (o.map fun t => (some key, t)).toList ++ present fields := by
  cases o <;> rfl

theorem filter_present_of_not_mem {fields : List (String × Option Tree)} {key : String}
    (h : key ∉ fields.map Prod.fst) :
    ((present fields).filter fun m => m.1 == some key) = [] := by
  refine List.filter_eq_nil_iff.mpr fun m hm hkey => h ?_
  obtain ⟨f, hf, hm⟩ := List.mem_filterMap.mp hm
  obtain ⟨t, -, rfl⟩ := Option.map_eq_some_iff.mp hm
  exact List.mem_map.mpr ⟨f, hf, Option.some.inj (beq_iff_eq.mp hkey)⟩

theorem filter_present {fields : List (String × Option Tree)} (h : (fields.map Prod.fst).Nodup)
    {key : String} {o : Option Tree} (hf : (key, o) ∈ fields) :
    ((present fields).filter fun m => m.1 == some key) =
      (o.map fun t => (some key, t)).toList := by
  induction fields with
  | nil => exact nomatch hf
  | cons f fields ih =>
    obtain ⟨key', o'⟩ := f
    obtain ⟨hkey, hrest⟩ := List.nodup_cons.mp h
    rw [present_cons, List.filter_append]
    rcases List.mem_cons.mp hf with heq | hf
    · obtain ⟨rfl, rfl⟩ := Prod.mk.inj heq
      rw [filter_present_of_not_mem hkey, List.append_nil]
      cases o <;> simp
    · have hne : key' ≠ key := by
        rintro rfl
        exact hkey (List.mem_map.mpr ⟨_, hf, rfl⟩)
      rw [ih hrest hf]
      cases o' <;> simp [hne]

theorem single?_present {fields : List (String × Option Tree)} (h : (fields.map Prod.fst).Nodup)
    {key : String} {o : Option Tree} (hf : (key, o) ∈ fields) :
    Reader.single? (present fields) key = some o := by
  rw [Reader.single?, filter_present h hf]
  cases o <;> rfl

theorem fields?_present (fields : List (String × Option Tree))
    (h : (fields.map Prod.fst).Nodup) :
    Reader.fields? (fields.map Prod.fst) (.object (present fields)) =
      some (fields.map Prod.snd) := by
  have hkeys : ((present fields).all fun m => m.1.isSome) = true := by
    refine List.all_eq_true.mpr fun m hm => ?_
    obtain ⟨f, -, hm⟩ := List.mem_filterMap.mp hm
    obtain ⟨t, -, rfl⟩ := Option.map_eq_some_iff.mp hm
    rfl
  have hread : ∀ fs ⊆ fields, (fs.map Prod.fst).mapM (Reader.single? (present fields)) =
      some (fs.map Prod.snd) := by
    intro fs
    induction fs with
    | nil => exact fun _ => rfl
    | cons f fs ih =>
      intro hsub
      obtain ⟨hf, hfs⟩ := List.cons_subset.mp hsub
      rw [List.map_cons, List.mapM_cons, single?_present h hf, ih hfs]
      rfl
  rw [Reader.fields?, if_pos hkeys, hread fields fun _ hf => hf]

theorem treesOfMembers?_written {names : List String} {js : List (Option Json)}
    {ts : List (Option Tree)} (h : List.Forall₂ SaysField js ts) :
    treesOfMembers? (written (names.zip js)) = some (present (names.zip ts)) := by
  induction h generalizing names with
  | nil =>
    rw [List.zip_nil_right, List.zip_nil_right]
    rfl
  | @cons j t js ts hfield _ ih =>
    cases names with
    | nil => rfl
    | cons name names =>
      have hrest : treesOfMembers? (written (names.zip js)) = some (present (names.zip ts)) := ih
      cases j with
      | none =>
        obtain rfl := Option.map_eq_none_iff.mp hfield.symm
        exact hrest
      | some j =>
        obtain ⟨t, rfl, ht⟩ := Option.map_eq_some_iff.mp hfield.symm
        show treesOfMembers? ((name, j) :: written (names.zip js)) = _
        rw [treesOfMembers?, ← ht, hrest]
        rfl

/-- A record is read field by field, `none` for those that were left out. -/
theorem exists_fields? (names : List String) (hnames : names.Nodup) {js : List (Option Json)}
    {ts : List (Option Tree)} (hlength : names.length = ts.length)
    (h : List.Forall₂ SaysField js ts) :
    ∃ t, Tree.ofJson? (.object (written (names.zip js))) = some t ∧
      Reader.fields? names t = some ts := by
  have hkeys : (names.zip ts).map Prod.fst = names := List.map_fst_zip hlength.le
  have hfields := fields?_present (names.zip ts) (hkeys.symm ▸ hnames)
  rw [hkeys, List.map_snd_zip hlength.ge] at hfields
  exact ⟨_, congrArg (Option.map Tree.object) (treesOfMembers?_written h), hfields⟩

/-- A field that may be missing, under a reader that reads no null. -/
theorem readsBack_optional {o : Option α} (h : ∀ a, ReadsBack write read a)
    (hnull : read .null = none) :
    ∃ t, SaysField (o.map write) t ∧ Reader.optional? read t = some o := by
  cases o with
  | none => exact ⟨none, rfl, rfl⟩
  | some a =>
    obtain ⟨t, ht, hread⟩ := h a
    refine ⟨some t, congrArg some ht, ?_⟩
    cases t with
    | null => exact absurd (hnull.symm.trans hread) nofun
    | _ => simp only [Reader.optional?, hread, Option.map_some]

end

/-! ## Arguments -/

theorem ArgumentSource.ofName?_name (s : ArgumentSource) : ofName? s.name = some s := by
  cases s <;> decide

theorem readsBack_argument (a : Argument) : ReadsBack Argument.toJson Reader.argument? a := by
  obtain ⟨path, hpath, hread⟩ := readsBack_optional (o := a.sourcePath) readsBack_strings rfl
  obtain ⟨t, ht, hfields⟩ := exists_fields? ["name", "source", "source_path"] (by decide) rfl
    (.cons (.of (j := .string a.name) rfl)
      (.cons (.of (j := .string a.source.name) rfl) (.cons hpath .nil)))
  refine ⟨t, ?_, ?_⟩
  · rw [← ht, Argument.toJson]
    cases a.sourcePath <;> rfl
  · simp [Reader.argument?, hfields, Reader.string?, Reader.innerConstant?, Reader.constant?,
      ArgumentSource.ofName?_name, hread]

theorem readsBack_fieldConfig (f : FieldConfig) :
    ReadsBack FieldConfig.toJson Reader.fieldConfig? f := by
  obtain ⟨arguments, harguments, hread⟩ := readsBack_list fun a (_ : a ∈ f.arguments) =>
    readsBack_argument a
  obtain ⟨t, ht, hfields⟩ := exists_fields? ["field_name", "arguments"] (by decide) rfl
    (.cons (.of (j := .string f.fieldName) rfl) (.cons (.of harguments) .nil))
  exact ⟨t, ht, by simp [Reader.fieldConfig?, hfields, Reader.string?, hread]⟩

theorem readsBack_arguments (a : ArgumentsConfig) :
    ReadsBack ArgumentsConfig.toJson Reader.arguments? a := by
  obtain ⟨fields, htree, hread⟩ := readsBack_list fun f (_ : f ∈ a.fields) =>
    readsBack_fieldConfig f
  refine ⟨.object [(some "fields", fields)], ?_, ?_⟩
  · rw [ArgumentsConfig.toJson, Tree.ofJson?, treesOfMembers?, htree]
    rfl
  · simp [Reader.arguments?, Reader.onlyFields?, Reader.fields?, Reader.single?, hread]

/-! ## Attributes -/

/-- The tree of header fields. -/
def headersTree (h : Headers) : Tree :=
  .object (h.map fun (k, v) => (some k, .string (some v)))

theorem ofJson?_headers (h : Headers) :
    Tree.ofJson? (Headers.toJson h) = some (headersTree h) := by
  have hmembers : treesOfMembers? (h.map fun (k, v) => (k, Json.string v)) =
      some (h.map fun (k, v) => (some k, Tree.string (some v))) := by
    induction h with
    | nil => rfl
    | cons p h ih =>
      rw [List.map_cons, treesOfMembers?, ih]
      rfl
  rw [Headers.toJson, Tree.ofJson?, hmembers]
  rfl

theorem headers?_headersTree {h : Headers} (hkeys : (Dictionary.keys h).Nodup) :
    Reader.headers? (headersTree h) = some h := by
  have hread : ∀ h : Headers,
      (h.map fun (k, v) => (some k, Tree.string (some v))).mapM Reader.header? = some h := by
    intro h
    induction h with
    | nil => rfl
    | cons p h ih =>
      rw [List.map_cons, List.mapM_cons, ih]
      rfl
  rw [headersTree, Reader.headers?, hread, Option.map_some, Dictionary.ofPairs_eq_self hkeys]

theorem mem_of_single? {ms : List (Option String × Tree)} {key : String} {t : Tree}
    (h : Reader.single? ms key = some (some t)) : (some key, t) ∈ ms := by
  rw [Reader.single?] at h
  split at h
  · exact nomatch h
  · rename_i k u hfilter
    obtain rfl := Option.some.inj (Option.some.inj h)
    have hmem : (k, u) ∈ ms.filter fun m => m.1 == some key := hfilter ▸ List.mem_cons_self
    obtain ⟨hmem, hkey⟩ := List.mem_filter.mp hmem
    obtain rfl : k = some key := beq_iff_eq.mp hkey
    exact hmem
  · exact nomatch h

/-- Arguments are in a list under their field, and a header field holds no list. -/
theorem arguments?_headersTree (h : Headers) : Reader.arguments? (headersTree h) = none := by
  refine Option.eq_none_iff_forall_ne_some.mpr fun a ha => ?_
  obtain ⟨fs, hfs, ha⟩ := Option.bind_eq_some_iff.mp ha
  have hread : ["fields"].mapM (Reader.single?
      (h.map fun (k, v) => (some k, Tree.string (some v)))) = some fs := by
    simp only [Reader.onlyFields?, headersTree, Reader.fields?,
      Option.ite_none_right_eq_some] at hfs
    exact hfs.2.2
  rw [List.mapM_cons, List.mapM_nil] at hread
  obtain ⟨o, ho, hread⟩ := Option.bind_eq_some_iff.mp hread
  obtain rfl := Option.some.inj hread
  obtain ⟨fields, hfields, -⟩ := Option.bind_eq_some_iff.mp ha
  obtain ⟨t, rfl, ht⟩ := Option.bind_eq_some_iff.mp hfields
  obtain ⟨p, -, hp⟩ := List.mem_map.mp (mem_of_single? ho)
  obtain rfl := (Prod.mk.inj hp).2
  exact nomatch ht

theorem depth_list_le {α : Type} {write : α → Json} {as : List α} {d : Nat}
    (h : ∀ a ∈ as, (write a).depth ≤ d) : (Json.array (as.map write)).depth ≤ d + 1 := by
  refine Nat.succ_le_succ ?_
  induction as with
  | nil => exact Nat.zero_le d
  | cons a as ih =>
    exact max_le (h a List.mem_cons_self) (ih fun b hb => h b (List.mem_cons_of_mem a hb))

theorem depth_record_le {ps : List (String × Json)} {d : Nat} (h : ∀ p ∈ ps, p.2.depth ≤ d) :
    (Json.object ps).depth ≤ d + 1 := by
  refine Nat.succ_le_succ ?_
  induction ps with
  | nil => exact Nat.zero_le d
  | cons p ps ih =>
    exact max_le (h p List.mem_cons_self) (ih fun q hq => h q (List.mem_cons_of_mem p hq))

theorem depth_string_le (s : String) (d : Nat) : (Json.string s).depth ≤ d :=
  Nat.zero_le d

theorem depth_argument (a : Argument) : a.toJson.depth ≤ 2 := by
  have hpath : ∀ p ∈ optionalField "source_path" (a.sourcePath.map jsonOfStrings),
      p.2.depth ≤ 1 := by
    cases a.sourcePath with
    | none => exact fun _ hp => nomatch hp
    | some path =>
      exact List.forall_mem_singleton.mpr (depth_list_le fun s _ => depth_string_le s 0)
  refine depth_record_le (List.forall_mem_append.mpr ⟨?_, hpath⟩)
  exact List.forall_mem_cons.mpr ⟨depth_string_le _ 1,
    List.forall_mem_singleton.mpr (depth_string_le _ 1)⟩

theorem depth_fieldConfig (f : FieldConfig) : f.toJson.depth ≤ 4 :=
  depth_record_le (List.forall_mem_cons.mpr ⟨depth_string_le f.fieldName 3,
    List.forall_mem_singleton.mpr (depth_list_le fun a _ => depth_argument a)⟩)

theorem depth_attributeValue (v : AttributeValue) : v.toJson.depth ≤ 6 := by
  cases v with
  | string s => exact depth_string_le s 6
  | arguments a =>
    exact depth_record_le (List.forall_mem_singleton.mpr
      (depth_list_le fun f _ => depth_fieldConfig f))
  | headers h =>
    refine (depth_record_le (d := 0) (List.forall_mem_map.mpr fun p _ => ?_)).trans (by decide)
    exact depth_string_le p.2 0

theorem firstFit?_of_representable {v : AttributeValue} (h : v.Representable) :
    ReadsBack AttributeValue.toJson Reader.firstFit? v := by
  cases v with
  | string s => exact ⟨.string (some s), rfl, rfl⟩
  | arguments a =>
    obtain ⟨t, ht, hread⟩ := readsBack_arguments a
    refine ⟨t, ht, ?_⟩
    have hstring : Reader.string? t = none := by
      obtain ⟨ms, -, rfl⟩ := Option.map_eq_some_iff.mp ht
      rfl
    rw [Reader.firstFit?, hstring, hread]
    rfl
  | headers hs =>
    refine ⟨headersTree hs, ofJson?_headers hs, ?_⟩
    rw [Reader.firstFit?, arguments?_headersTree, headers?_headersTree h]
    rfl

/-- Strings, arguments and header fields are told apart. -/
theorem readsBack_attributeValue {v : AttributeValue} (h : v.Representable) (around : Nat)
    (haround : around + 6 ≤ Json.maxDepth) :
    ReadsBack AttributeValue.toJson (Reader.attributeValue? around) v := by
  obtain ⟨t, ht, hread⟩ := firstFit?_of_representable h
  have hdepth : v.toJson.depth ≤ Json.maxDepth - around := by
    have hv := depth_attributeValue v
    omega
  obtain ⟨j, hj⟩ := Json.exists_value? _ ht _ hdepth
  refine ⟨t, ht, ?_⟩
  rw [Reader.attributeValue?, hj]
  exact hread

theorem readsBack_attribute {a : Attribute} (h : a.value.Representable) :
    ReadsBack Attribute.toJson (Reader.attribute? 5) a := by
  obtain ⟨value, hvalue, hread⟩ := readsBack_attributeValue h 5 (by decide)
  obtain ⟨t, ht, hfields⟩ := exists_fields? ["key", "value"] (by decide) rfl
    (.cons (.of (j := .string a.key) rfl) (.cons (.of hvalue) .nil))
  exact ⟨t, ht, by simp [Reader.attribute?, hfields, Reader.string?, hread]⟩

theorem readsBack_attributes {as : List Attribute} (h : ∀ a ∈ as, a.value.Representable) :
    ReadsBack (fun as => .array (as.map Attribute.toJson)) Reader.attributes? as :=
  readsBack_list fun a ha => readsBack_attribute (h a ha)

/-! ## Configurations -/

theorem SourceKind.ofName?_name (k : SourceKind) : ofName? k.name = some k := by
  cases k <;> decide

theorem readsBack_dataSource {d : DataSource} (h : ∀ a ∈ d.attributes, a.value.Representable) :
    ReadsBack DataSource.toJson Reader.dataSource? d := by
  obtain ⟨attributes, hattributes, hread⟩ := readsBack_attributes h
  obtain ⟨t, ht, hfields⟩ := exists_fields? ["kind", "name", "default_attributes"] (by decide) rfl
    (.cons (.of (j := .string d.kind.name) rfl) (.cons (.of (j := .string d.name) rfl)
      (.cons (.of hattributes) .nil)))
  exact ⟨t, ht, by simp [Reader.dataSource?, hfields, Reader.string?, Reader.constant?,
    SourceKind.ofName?_name, hread]⟩

theorem readsBack_index {n : Nat} (h : n < pow2 64) :
    ReadsBack (fun n : Nat => .number (.integer n)) Reader.index? n := by
  have hrange : (inSigned 63 n || inUnsigned 64 n) = true := by
    simp only [inUnsigned, Bool.or_eq_true, Bool.and_eq_true, decide_eq_true_eq]
    omega
  refine ⟨.number (.ofInt n), ?_, ?_⟩
  · rw [Tree.ofJson?, Json.Number.literal?_integer.mpr ⟨hrange, rfl⟩]
    rfl
  · simp only [Reader.index?, Json.number?_ofInt hrange, Int.natCast_nonneg, if_true,
      Int.toNat_natCast]

theorem readsBack_resolver {r : Resolver} (h : ∀ a ∈ r.attributes, a.value.Representable)
    (hindex : r.dataSource < pow2 64) : ReadsBack Resolver.toJson Reader.resolver? r := by
  obtain ⟨index, hindex, hreadIndex⟩ := readsBack_index hindex
  obtain ⟨names, hnames, hreadNames⟩ := readsBack_strings r.fieldNames
  obtain ⟨attributes, hattributes, hread⟩ := readsBack_attributes h
  obtain ⟨t, ht, hfields⟩ := exists_fields?
    ["type_name", "data_source", "field_names", "attributes"] (by decide) rfl
    (.cons (.of (j := .string r.typeName) rfl) (.cons (.of hindex) (.cons (.of hnames)
      (.cons (.of hattributes) .nil))))
  exact ⟨t, ht, by simp [Reader.resolver?, hfields, Reader.string?, hreadIndex, hreadNames, hread]⟩

theorem readsBack_bool (b : Bool) : ReadsBack .bool Reader.bool? b :=
  ⟨.bool b, rfl, rfl⟩

theorem readsBack_mapping (m : Mapping) : ReadsBack Mapping.toJson Reader.mapping? m := by
  obtain ⟨disable, hdisable, hreadDisable⟩ :=
    readsBack_optional (o := m.disableDefaultMapping) readsBack_bool rfl
  obtain ⟨path, hpath, hreadPath⟩ := readsBack_optional (o := m.path) readsBack_strings rfl
  obtain ⟨t, ht, hfields⟩ := exists_fields?
    ["type_name", "field_name", "disable_default_mapping", "path"] (by decide) rfl
    (.cons (.of (j := .string m.typeName) rfl) (.cons (.of (j := .string m.fieldName) rfl)
      (.cons hdisable (.cons hpath .nil))))
  refine ⟨t, ?_, ?_⟩
  · rw [← ht, Mapping.toJson]
    cases m.disableDefaultMapping <;> cases m.path <;> rfl
  · simp [Reader.mapping?, hfields, Reader.string?, hreadDisable, hreadPath]

theorem readsBack_configuration {c : Configuration} (h : c.Representable) :
    ReadsBack Configuration.toJson Reader.configuration? c := by
  obtain ⟨sources, hsources, hreadSources⟩ := readsBack_list fun d hd =>
    readsBack_dataSource (h.sources d hd)
  obtain ⟨resolvers, hresolvers, hreadResolvers⟩ := readsBack_list fun r hr =>
    readsBack_resolver (h.resolvers r hr) (h.indices r hr)
  obtain ⟨mappings, hmappings, hreadMappings⟩ := readsBack_list fun m (_ : m ∈ c.mappings) =>
    readsBack_mapping m
  obtain ⟨t, ht, hfields⟩ := exists_fields? ["data_sources", "resolvers", "mappings"] (by decide)
    rfl (.cons (.of hsources) (.cons (.of hresolvers) (.cons (.of hmappings) .nil)))
  exact ⟨t, ht, by simp [Reader.configuration?, hfields, hreadSources, hreadResolvers,
    hreadMappings]⟩

/-! ## What is read -/

theorem representable_of_attributeValue? {around : Nat} {t : Tree} {v : AttributeValue}
    (h : Reader.attributeValue? around t = some v) : v.Representable := by
  obtain ⟨-, h⟩ := Option.ite_none_right_eq_some.mp h
  cases v with
  | headers hs =>
    simp only [Reader.firstFit?, Option.or_eq_some_iff, Option.map_eq_some_iff, reduceCtorEq,
      and_false, exists_false, false_or, AttributeValue.headers.injEq, exists_eq_right] at h
    obtain ⟨-, -, h⟩ := h
    cases t with
    | object ms =>
      obtain ⟨ps, -, rfl⟩ := Option.map_eq_some_iff.mp h
      exact Dictionary.nodup_keys_ofPairs ps
    | _ => exact nomatch h
  | _ => trivial

theorem representable_of_attributes? {t : Tree} {as : List Attribute}
    (h : Reader.attributes? t = some as) : ∀ a ∈ as, a.value.Representable := by
  intro a ha
  obtain ⟨u, hu⟩ := exists_of_list? h a ha
  simp only [Reader.attribute?, Option.bind_eq_bind, Option.bind_eq_some_iff] at hu
  obtain ⟨fs, -, hu⟩ := hu
  split at hu
  · simp only [Option.bind_eq_some_iff, Option.pure_def, Option.some.injEq] at hu
    obtain ⟨key, -, value, ⟨v, -, hv⟩, rfl⟩ := hu
    exact representable_of_attributeValue? hv
  · exact nomatch hu

theorem integer_lt_of_number? {l : Json.Literal} {n : Int} (h : l.number? = some (.integer n)) :
    n < pow2 64 := by
  have hfloat : ∀ x : Option Decimal.Binary64, x.map Json.Number.float ≠ some (.integer n) := by
    intro x hx
    obtain ⟨y, -, hy⟩ := Option.map_eq_some_iff.mp hx
    exact nomatch hy
  have hpos : 0 < pow2 64 := by decide
  rw [Json.Literal.number?] at h
  split at h
  · split at h <;> split at h
    · rename_i hlt
      obtain rfl := Json.Number.integer.inj (Option.some.inj h)
      exact Int.ofNat_lt.mpr hlt
    · exact absurd h (hfloat _)
    · obtain rfl := Json.Number.integer.inj (Option.some.inj h)
      omega
    · exact absurd h (hfloat _)
  · exact absurd h (hfloat _)

theorem lt_of_index? {t : Tree} {n : Nat} (h : Reader.index? t = some n) : n < pow2 64 := by
  cases t with
  | number l =>
    rw [Reader.index?] at h
    split at h
    · rename_i i hi
      have hlt := integer_lt_of_number? hi
      obtain ⟨hnonneg, hn⟩ := Option.ite_none_right_eq_some.mp h
      obtain rfl := Option.some.inj hn
      omega
    · exact nomatch h
  | _ => exact nomatch h

theorem representable_of_dataSource? {t : Tree} {d : DataSource}
    (h : Reader.dataSource? t = some d) : ∀ a ∈ d.attributes, a.value.Representable := by
  simp only [Reader.dataSource?, Option.bind_eq_bind, Option.bind_eq_some_iff] at h
  obtain ⟨fs, -, h⟩ := h
  split at h
  · simp only [Option.bind_eq_some_iff, Option.pure_def, Option.some.injEq] at h
    obtain ⟨kind, -, name, -, attributes, ⟨u, -, hu⟩, rfl⟩ := h
    exact representable_of_attributes? hu
  · exact nomatch h

theorem representable_of_resolver? {t : Tree} {r : Resolver} (h : Reader.resolver? t = some r) :
    (∀ a ∈ r.attributes, a.value.Representable) ∧ r.dataSource < pow2 64 := by
  simp only [Reader.resolver?, Option.bind_eq_bind, Option.bind_eq_some_iff] at h
  obtain ⟨fs, -, h⟩ := h
  split at h
  · simp only [Option.bind_eq_some_iff, Option.pure_def, Option.some.injEq] at h
    obtain ⟨typeName, -, index, ⟨v, -, hv⟩, names, -, attributes, ⟨u, -, hu⟩, rfl⟩ := h
    exact ⟨representable_of_attributes? hu, lt_of_index? hv⟩
  · exact nomatch h

/-- Whatever is read can be written. -/
theorem representable_of_configuration? {t : Tree} {c : Configuration}
    (h : Reader.configuration? t = some c) : c.Representable := by
  simp only [Reader.configuration?, Option.bind_eq_bind, Option.bind_eq_some_iff] at h
  obtain ⟨fs, -, h⟩ := h
  split at h
  · simp only [Option.bind_eq_some_iff, Option.pure_def, Option.some.injEq] at h
    obtain ⟨sources, ⟨us, -, hus⟩, resolvers, ⟨vs, -, hvs⟩, mappings, -, rfl⟩ := h
    have hresolvers : ∀ r ∈ resolvers,
        (∀ a ∈ r.attributes, a.value.Representable) ∧ r.dataSource < pow2 64 := by
      intro r hr
      obtain ⟨v, hv⟩ := exists_of_list? hvs r hr
      exact representable_of_resolver? hv
    refine ⟨fun d hd => ?_, fun r hr => (hresolvers r hr).1, fun r hr => (hresolvers r hr).2⟩
    obtain ⟨u, hu⟩ := exists_of_list? hus d hd
    exact representable_of_dataSource? hu
  · exact nomatch h

/-- A configuration comes back from its text, each attribute value as what it was, header fields in
their order and absent fields absent, unless it holds what no configuration that is read holds. -/
theorem read?_toJson_iff (c : Configuration) :
    Configuration.read? c.toJson.text = some c ↔ c.Representable := by
  rw [Configuration.read?]
  constructor
  · intro h
    obtain ⟨t, -, h⟩ := Option.bind_eq_some_iff.mp h
    exact representable_of_configuration? h
  · intro h
    obtain ⟨t, ht, hread⟩ := readsBack_configuration h
    rw [Json.text, String.toList_ofList, Json.read?_write ht]
    exact hread

end ApiGraph.Engine
