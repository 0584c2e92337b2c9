import ApiGraph.Proofs.Generation.Translations
import ApiGraph.Proofs.OpenApi.Operations

/-!
# What a list of translations says

`Records` is what a list of translations says about the registries before and after.  A schema that
ends inline gets a name that was not taken before and is taken from then on, so what is listed later
cannot have got the same name; what is listed before, under an array, has a smaller type.  What
stands in a listed type is listed as well, unless it belongs to a component that had its type
before, and all that is listed stands in one of the outermost types, or in a type that does.

* `Records.append`, `Records.snoc`: lists one after the other, and a schema behind its parts.
* `records_of_array`, `records_of_finished`, `records_of_given_up`, `records_of_known`,
  `records_of_leaf`: one for each way to a type.
* `records_translations`: the list for one schema.
-/

namespace ApiGraph.Generation

open Relation (ReflTransGen)
open ApiGraph.GraphQL hiding Schema
open ApiGraph.OpenApi (RefOr Schema SchemaKind Components)

/-- The schema that was translated ends inline. -/
def Translation.EndsInline (c : Components) (x : Translation) : Prop :=
  Generation.EndsInline ⟨c, x.position⟩ x.schema

/-- What stands in the type is listed, whatever is added to the registry. -/
def PartsListed (c : Components) (log : List Translation) (r : Registry) (x : Translation) : Prop :=
  ∀ r', r.Keeps r' → ∀ y, PartOf c r' x y → Lists log y

/-- The translations lead from one registry to another; some of them are the outermost ones. -/
structure Records (c : Components) (tops log : List Translation) (r r' : Registry) : Prop where
  wellNamed : r'.WellNamed
  keeps : r.Keeps r'
  taken : ∀ name ∈ r.names.taken, name ∈ r'.names.taken
  /-- What schemas got are types for them. -/
  stands : ∀ x ∈ log, TypeFor ⟨c, x.position⟩ r' x.schema x.type
  /-- Whatever ends inline was given a new name. -/
  fresh : ∀ x ∈ log, x.EndsInline c →
    x.type.leaf ∈ r'.names.taken ∧ x.type.leaf ∉ r.names.taken
  /-- So it has a type of its own. -/
  apart : log.Pairwise fun x y => x.EndsInline c → y.EndsInline c → x.type ≠ y.type
  outermost : tops ⊆ log
  /-- All types stand below the outermost ones. -/
  below : ∀ x ∈ log, ∃ t ∈ tops, ∀ r'', r'.Keeps r'' → ReflTransGen (Above c r'') t x
  /-- The parts of types that components got are listed. -/
  assigned : ∀ position name type, r'.assigned? position name = some type →
    r.assigned? position name = some type ∨
      ∀ a, Setting.RefersTo ⟨c, position⟩ a name → PartsListed c log r' ⟨position, a, type⟩
  /-- And so are all other parts. -/
  parts : ∀ x ∈ log, PartsListed c log r' x ∨
    ∃ name, Setting.RefersTo ⟨c, x.position⟩ x.schema name ∧
      r.assigned? x.position name = some x.type

section Lists

variable {c : Components} {tops tops' log log' : List Translation} {r r₁ r' : Registry}
  {x : Translation}

theorem PartsListed.mono (h : PartsListed c log r x) (hsubset : log ⊆ log') (hkeeps : r.Keeps r') :
    PartsListed c log' r' x :=
  fun r'' hkeeps' y hy => (h r'' (hkeeps.trans hkeeps') y hy).mono hsubset

namespace Records

theorem refl (h : r.WellNamed) : Records c [] [] r r where
  wellNamed := h
  keeps := .refl r
  taken := fun _ h => h
  stands := nofun
  fresh := nofun
  apart := .nil
  outermost := nofun
  below := nofun
  assigned := fun _ _ _ => Or.inl
  parts := nofun

theorem append (h : Records c tops log r r₁) (h' : Records c tops' log' r₁ r') :
    Records c (tops ++ tops') (log ++ log') r r' := by
  have hleft : log ⊆ log ++ log' := List.subset_append_left ..
  have hright : log' ⊆ log ++ log' := List.subset_append_right ..
  constructor
  case wellNamed => exact h'.wellNamed
  case keeps => exact h.keeps.trans h'.keeps
  case taken => exact fun name hname => h'.taken name (h.taken name hname)
  case stands =>
    exact List.forall_mem_append.mpr ⟨fun x hx => (h.stands x hx).mono h'.keeps, h'.stands⟩
  case fresh =>
    refine List.forall_mem_append.mpr ⟨fun x hx hends => ?_, fun x hx hends => ?_⟩
    · obtain ⟨htaken, hfresh⟩ := h.fresh x hx hends
      exact ⟨h'.taken _ htaken, hfresh⟩
    · obtain ⟨htaken, hfresh⟩ := h'.fresh x hx hends
      exact ⟨htaken, fun hmem => hfresh (h.taken _ hmem)⟩
  case apart =>
    refine List.pairwise_append.mpr ⟨h.apart, h'.apart, fun x hx y hy hends hends' heq => ?_⟩
    -- The name that the first one got was not free any more when the second one got its own.
    exact (h'.fresh y hy hends').2 (heq ▸ (h.fresh x hx hends).1)
  case outermost =>
    refine List.append_subset.mpr ⟨?_, ?_⟩
    · exact List.Subset.trans h.outermost hleft
    · exact List.Subset.trans h'.outermost hright
  case below =>
    refine List.forall_mem_append.mpr ⟨fun x hx => ?_, fun x hx => ?_⟩
    · obtain ⟨t, ht, hbelow⟩ := h.below x hx
      exact ⟨t, List.mem_append_left _ ht, fun r'' hkeeps => hbelow r'' (h'.keeps.trans hkeeps)⟩
    · obtain ⟨t, ht, hbelow⟩ := h'.below x hx
      exact ⟨t, List.mem_append_right _ ht, hbelow⟩
  case assigned =>
    intro position name type htype
    rcases h'.assigned position name type htype with htype | hlisted
    · refine (h.assigned position name type htype).imp_right fun hlisted a ha => ?_
      exact (hlisted a ha).mono hleft h'.keeps
    · exact Or.inr fun a ha => (hlisted a ha).mono hright (.refl r')
  case parts =>
    refine List.forall_mem_append.mpr ⟨fun x hx => ?_, fun x hx => ?_⟩
    · exact (h.parts x hx).imp_left fun hlisted => hlisted.mono hleft h'.keeps
    · rcases h'.parts x hx with hlisted | ⟨name, hname, htype⟩
      · exact Or.inl (hlisted.mono hright (.refl r'))
      · rcases h.assigned _ name _ htype with htype | hlisted
        · exact Or.inr ⟨name, hname, htype⟩
        · exact Or.inl ((hlisted _ hname).mono hleft h'.keeps)

/-- The schema behind its parts. -/
theorem snoc (h : Records c tops log r r')
    (hstands : TypeFor ⟨c, x.position⟩ r' x.schema x.type)
    (hfresh : x.EndsInline c → x.type.leaf ∈ r'.names.taken ∧ x.type.leaf ∉ r.names.taken)
    (hapart : ∀ y ∈ log, y.EndsInline c → y.type ≠ x.type)
    (habove : ∀ t ∈ tops, ∀ r'', r'.Keeps r'' → Above c r'' x t)
    (hparts : PartsListed c log r' x ∨ ∃ name, Setting.RefersTo ⟨c, x.position⟩ x.schema name ∧
      r.assigned? x.position name = some x.type) :
    Records c [x] (log ++ [x]) r r' := by
  have hsubset : log ⊆ log ++ [x] := List.subset_append_left ..
  constructor
  case wellNamed => exact h.wellNamed
  case keeps => exact h.keeps
  case taken => exact h.taken
  case stands =>
    exact List.forall_mem_append.mpr ⟨h.stands, List.forall_mem_singleton.mpr hstands⟩
  case fresh =>
    exact List.forall_mem_append.mpr ⟨h.fresh, List.forall_mem_singleton.mpr hfresh⟩
  case apart =>
    refine List.pairwise_append.mpr ⟨h.apart, List.pairwise_singleton .., fun y hy => ?_⟩
    exact List.forall_mem_singleton.mpr fun hends _ => hapart y hy hends
  case outermost => exact List.subset_append_right ..
  case below =>
    refine List.forall_mem_append.mpr ⟨fun y hy => ?_, List.forall_mem_singleton.mpr ?_⟩
    · obtain ⟨t, ht, hbelow⟩ := h.below y hy
      refine ⟨x, List.mem_singleton_self x, fun r'' hkeeps => ?_⟩
      exact .head (habove t ht r'' hkeeps) (hbelow r'' hkeeps)
    · exact ⟨x, List.mem_singleton_self x, fun _ _ => .refl⟩
  case assigned =>
    intro position name type htype
    refine (h.assigned position name type htype).imp_right fun hlisted a ha => ?_
    exact (hlisted a ha).mono hsubset (.refl r')
  case parts =>
    refine List.forall_mem_append.mpr ⟨fun y hy => ?_, List.forall_mem_singleton.mpr ?_⟩
    · exact (h.parts y hy).imp_left fun hlisted => hlisted.mono hsubset (.refl r')
    · exact hparts.imp_left fun hlisted => hlisted.mono hsubset (.refl r')

end Records

theorem records_inTurn {make : Task → Registry → Except Fault (TypeRef × Registry)}
    {translated : Task → Registry → List Translation} {l : List Task}
    (hone : ∀ t ∈ l, ∀ {r type r'}, make t r = .ok (type, r') → r.WellNamed →
      Records c [t.done type] (translated t r) r r')
    (h : madeInTurn make l r = .ok (tops, r')) (hwell : r.WellNamed) :
    Records c tops (translatedInTurn make translated l r) r r' :=
  inTurn_of_each .refl .append (fun hrecords => hrecords.wellNamed) hone h hwell

theorem lists_of_uses {uses : List Translation}
    (h : List.Forall₂ Translation.IsUsedAs tops uses) {y : Translation} (hy : y ∈ uses) :
    Lists tops y :=
  exists_of_forall₂ h.flip hy

end Lists

section Schemas

variable {s : Setting} {a : RefOr Schema} {component : Option String} {resolved : Schema}
  {bound : Nat} {hint : String} {r r₂ r' : Registry} {type : TypeRef}
  {properties : List (String × RefOr Schema)} {required : List String}
  {members : List InputValue} {tops log : List Translation}

/-! ## Arrays -/

theorem partOf_list_iff {items : RefOr Schema} {item : TypeRef} {y : Translation}
    (hresolve : s.resolve a = .ok (component, resolved))
    (hkind : resolved.kind = .array (some items)) :
    PartOf s.components r ⟨s.position, a, .list item⟩ y ↔ y = ⟨s.position, items, item⟩ := by
  constructor
  · intro hy
    rcases hy.cases_of_resolve hresolve with
      ⟨_, _, harray, htype, rfl⟩ | ⟨_, _, _, _, _, hobject, -⟩
    · obtain rfl := Option.some.inj (SchemaKind.array.inj (hkind.symm.trans harray))
      obtain rfl := TypeRef.list.inj htype
      rfl
    · exact nomatch hkind.symm.trans hobject
  · rintro rfl
    exact .item hresolve hkind rfl

/-- An array is listed behind its items; its type has their name at the bottom. -/
theorem records_of_array {items : RefOr Schema} {item : TypeRef} {condition : Bool}
    (hmakes : Makes s a hint r (.list (item.excludeNullIf condition)) r') (hwell : r.WellNamed)
    (hresolve : s.resolve a = .ok (component, resolved))
    (hkind : resolved.kind = .array (some items))
    (hsize : sizeOf item < sizeOf (TypeRef.list (item.excludeNullIf condition)))
    (hlog : Records s.components [⟨s.position, items, item⟩] log r r')
    (hlargest : ∀ x ∈ log, x.EndsInline s.components → x.type.leaf = item.leaf →
      sizeOf x.type ≤ sizeOf item) :
    Records s.components [⟨s.position, a, .list (item.excludeNullIf condition)⟩]
      (log ++ [⟨s.position, a, .list (item.excludeNullIf condition)⟩]) r r' := by
  have hitems := hlog.outermost (List.mem_singleton_self _)
  have hleaf : (TypeRef.list (item.excludeNullIf condition)).leaf = item.leaf := by
    rw [TypeRef.leaf, leaf_excludeNullIf]
  have huse : (⟨s.position, items, item⟩ : Translation).IsUsedAs
      ⟨s.position, items, item.excludeNullIf condition⟩ := ⟨rfl, rfl, condition, rfl⟩
  refine hlog.snoc (hmakes.built hwell).2 (fun hends => ?_) (fun x hx hends heq => ?_)
    (fun t ht r'' _ => ?_) (Or.inl fun r'' _ y hy => ?_)
  · rcases EndsInline.cases_of_resolve hends hresolve with
      ⟨-, _, _, hobject, -⟩ | ⟨_, harray, hends⟩
    · exact nomatch hkind.symm.trans hobject
    · obtain rfl := Option.some.inj (SchemaKind.array.inj (hkind.symm.trans harray))
      have hfresh := hlog.fresh _ hitems hends
      rw [← hleaf] at hfresh
      exact hfresh
  · -- The type of the array is larger than all types below it with the same name.
    have hle := hlargest x hx hends (heq ▸ hleaf)
    rw [heq] at hle
    exact absurd hsize (Nat.not_lt.mpr hle)
  · obtain rfl := List.mem_singleton.mp ht
    exact ⟨_, (partOf_list_iff hresolve hkind).mpr rfl, huse⟩
  · rw [(partOf_list_iff hresolve hkind).mp hy]
    exact ⟨_, hitems, huse⟩

/-! ## Nothing new below a schema -/

theorem records_nil (hmakes : Makes s a hint r type r') (hwell : r.WellNamed)
    (hassigned : ∀ position name type', r'.assigned? position name = some type' →
      r.assigned? position name = some type' ∨
        ∀ b, Setting.RefersTo ⟨s.components, position⟩ b name →
          PartsListed s.components [] r' ⟨position, b, type'⟩) :
    Records s.components [] [] r r' where
  wellNamed := hmakes.wellNamed hwell
  keeps := hmakes.extends.keeps hwell
  taken := hmakes.extends.taken
  stands := nofun
  fresh := nofun
  apart := .nil
  outermost := nofun
  below := nofun
  assigned := hassigned
  parts := nofun

/-- A scalar is all that is listed, and so is a schema without a known shape. -/
theorem records_of_leaf (h : typeOf s (bound + 1) a hint r = .ok (type, r'))
    (hwell : r.WellNamed) (hresolve : s.resolve a = .ok (component, resolved))
    (hleaf : (∃ name, scalarName? resolved.kind = some name) ∨
      isShapeless resolved.kind = true) :
    Records s.components [⟨s.position, a, type⟩] [⟨s.position, a, type⟩] r r' := by
  have hmakes := makes_of_typeOf h
  have hnothing : Records s.components [] [] r r' := by
    refine records_nil hmakes hwell fun position name type' htype => Or.inl ?_
    rcases hleaf with ⟨_, hkind⟩ | hkind
    · rw [typeOf_of_scalar hresolve hkind] at h
      obtain ⟨-, rfl⟩ := Prod.mk.inj (Except.ok.inj h)
      exact htype
    · rw [typeOf_of_shapeless hresolve hkind] at h
      obtain ⟨-, rfl⟩ := Prod.mk.inj (Except.ok.inj h)
      exact htype
  refine hnothing.snoc (hmakes.built hwell).2
    (fun hends => absurd hends (not_endsInline_of_leaf hleaf hresolve)) nofun nofun
    (Or.inl fun r'' _ y hy => ?_)
  rcases hy.cases_of_resolve hresolve with ⟨_, _, harray, -⟩ | ⟨_, _, _, _, _, hobject, -, -, hp, -⟩
  · exact absurd harray (kind_ne_array_of_leaf hleaf _)
  · rw [visible_of_leaf hleaf hobject] at hp
    exact absurd hp List.not_mem_nil

/-- A component that has its type is all that is listed. -/
theorem records_of_known {name : String} (hwell : r.WellNamed)
    (hresolve : s.resolve a = .ok (some name, resolved))
    (hkind : resolved.kind = .object properties required)
    (hassigned : r.assigned? s.position name = some type) :
    Records s.components [⟨s.position, a, type⟩] [⟨s.position, a, type⟩] r r := by
  refine (Records.refl hwell).snoc (.component hresolve hkind hassigned) (fun hends => ?_) nofun
    nofun (Or.inr ⟨name, ⟨_, hresolve⟩, hassigned⟩)
  rcases EndsInline.cases_of_resolve hends hresolve with ⟨hnone, -⟩ | ⟨_, harray, -⟩
  · exact nomatch hnone
  · exact nomatch hkind.symm.trans harray

/-! ## Objects -/

theorem partOf_named_iff {t : Composite} {y : Translation}
    (hresolve : s.resolve a = .ok (component, resolved))
    (hkind : resolved.kind = .object properties required)
    (hregistered : r.registered? s.position t.name = some (some t)) :
    PartOf s.components r ⟨s.position, a, .named t.name⟩ y ↔
      y ∈ memberUses s properties t.members := by
  constructor
  · intro hy
    rcases hy.cases_of_resolve hresolve with
      ⟨_, _, harray, -⟩ | ⟨_, _, t', p, m, hobject, htype, hregistered', hmember, rfl⟩
    · exact nomatch hkind.symm.trans harray
    · obtain ⟨rfl, rfl⟩ := SchemaKind.object.inj (hkind.symm.trans hobject)
      rw [← TypeRef.named.inj htype] at hregistered'
      obtain rfl := Option.some.inj (Option.some.inj (hregistered.symm.trans hregistered'))
      exact List.mem_map.mpr ⟨(p, m), hmember, rfl⟩
  · intro hy
    obtain ⟨⟨p, m⟩, hmember, rfl⟩ := List.mem_map.mp hy
    exact .member hresolve hkind rfl hregistered hmember

/-- The type of an object, when its members have been made. -/
def madeType (s : Setting) (component : Option String) (hint : String) (resolved : Schema)
    (members : List InputValue) (r : Registry) : Composite :=
  ⟨claimedName s component (baseName component hint) r, members, resolved.data.description⟩

/-- With a visible property, the type is finished and not given up. -/
theorem endObject_of_visible (hwell : r.WellNamed)
    (hmembers : MakesMembers s
      (s.ownerName (baseName component hint)
        (beginObject s component (baseName component hint) r).1)
      required [] properties (beginObject s component (baseName component hint) r).2 members r₂)
    (hvisible : s.visible properties ≠ []) :
    endObject s component (madeType s component hint resolved members r) r₂ =
      (.named (claimedName s component (baseName component hint) r),
        r₂.finish s.position (madeType s component hint resolved members r)) := by
  obtain ⟨-, made, heq, hfor⟩ := hmembers.built hwell.beginObject
  rw [List.nil_append] at heq
  subst heq
  exact endObject_of_ne_nil fun hempty => hvisible (hfor.eq_nil_iff.mp hempty)

section Objects

variable (hwell : r.WellNamed) (hresolve : s.resolve a = .ok (component, resolved))
  (hkind : resolved.kind = .object properties required)
  (hnew : component.bind (r.assigned? s.position) = none)
  (hmembers : MakesMembers s
    (s.ownerName (baseName component hint)
      (beginObject s component (baseName component hint) r).1)
    required [] properties (beginObject s component (baseName component hint) r).2 members r₂)

include hwell hresolve hkind hnew hmembers

/-- An object without a visible property is all that is listed. -/
theorem records_of_given_up (hvisible : s.visible properties = []) :
    let ended := endObject s component (madeType s component hint resolved members r) r₂
    Records s.components [⟨s.position, a, ended.1⟩] [⟨s.position, a, ended.1⟩] r ended.2 := by
  intro ended
  have hmakes : Makes s a hint r ended.1 ended.2 := .new hresolve hkind hnew hmembers
  obtain ⟨-, rfl⟩ := hmembers.eq_of_hidden hvisible
  -- No type for the object, or for the component that it is, has parts.
  have hno : ∀ {position a' type' r'' y}, s.resolve a' = .ok (component, resolved) →
      position = s.position → ¬ PartOf s.components r'' ⟨position, a', type'⟩ y := by
    rintro position a' type' r'' y hresolve' rfl hy
    rcases hy.cases_of_resolve hresolve' with
      ⟨_, _, harray, -⟩ | ⟨_, _, _, _, _, hobject, -, -, hp, -⟩
    · exact nomatch hkind.symm.trans harray
    · obtain ⟨rfl, rfl⟩ := SchemaKind.object.inj (hkind.symm.trans hobject)
      rw [show Setting.visible ⟨s.components, s.position⟩ properties = [] from hvisible] at hp
      exact absurd hp List.not_mem_nil
  have hnothing : Records s.components [] [] r ended.2 := by
    refine records_nil hmakes hwell fun position name type' htype => ?_
    by_cases hown : position = s.position ∧ component = some name
    · obtain ⟨rfl, rfl⟩ := hown
      refine Or.inr fun a' ha' r'' _ y hy => absurd hy (hno ?_ rfl)
      exact (resolve_eq_of_refersTo ha' ⟨_, hresolve⟩).trans hresolve
    · rw [assigned?_endObject hown, assigned?_beginObject, if_neg hown] at htype
      exact Or.inl htype
  refine hnothing.snoc (hmakes.built hwell).2 (fun hends => ?_) nofun nofun
    (Or.inl fun r'' _ y hy => absurd hy (hno hresolve rfl))
  rcases EndsInline.cases_of_resolve hends hresolve with ⟨-, _, _, hobject, hne⟩ | ⟨_, harray, -⟩
  · obtain ⟨rfl, rfl⟩ := SchemaKind.object.inj (hkind.symm.trans hobject)
    exact absurd hvisible hne
  · exact nomatch hkind.symm.trans harray

/-- With a visible property, the finished type is what is made. -/
theorem makes_finished (hvisible : s.visible properties ≠ []) :
    Makes s a hint r (.named (claimedName s component (baseName component hint) r))
      (r₂.finish s.position (madeType s component hint resolved members r)) := by
  have hmakes : Makes s a hint r
      (endObject s component (madeType s component hint resolved members r) r₂).1
      (endObject s component (madeType s component hint resolved members r) r₂).2 :=
    .new hresolve hkind hnew hmembers
  rw [endObject_of_visible hwell hmembers hvisible] at hmakes
  exact hmakes

variable (hlog : Records s.components tops log
    (beginObject s component (baseName component hint) r).2 r₂)
  (huses : List.Forall₂ Translation.IsUsedAs tops (memberUses s properties members))
  (hvisible : s.visible properties ≠ [])
include hlog huses

omit hwell hnew hmembers in
/-- The members of the finished type are what was translated. -/
theorem partsListed_finish {b : RefOr Schema} (hb : s.resolve b = s.resolve a) :
    PartsListed s.components log
      (r₂.finish s.position (madeType s component hint resolved members r))
      ⟨s.position, b, .named (claimedName s component (baseName component hint) r)⟩ := by
  intro r'' hkeeps y hy
  have hregistered := hkeeps.finished s.position _ (madeType s component hint resolved members r)
    ((Registry.registered?_finish ..).trans (if_pos ⟨rfl, rfl⟩))
  have hmem := (partOf_named_iff (hb.trans hresolve) hkind hregistered).mp hy
  exact (lists_of_uses huses hmem).mono hlog.outermost

include hvisible

/-- From the beginning of a type to its end, no more is translated than its members. -/
theorem records_finish : Records s.components tops log r
    (r₂.finish s.position (madeType s component hint resolved members r)) := by
  have hmakes := makes_finished hwell hresolve hkind hnew hmembers hvisible
  have hfinished : r₂.Keeps (r₂.finish s.position (madeType s component hint resolved members r)) :=
    .finish (registered?_claimedName hmembers.extends)
  -- What components had when the type was begun, they had before, or it is this type.
  have hbegun : ∀ position name type',
      (beginObject s component (baseName component hint) r).2.assigned? position name = some type' →
        r.assigned? position name = some type' ∨
          ∀ b, Setting.RefersTo ⟨s.components, position⟩ b name → PartsListed s.components log
            (r₂.finish s.position (madeType s component hint resolved members r))
              ⟨position, b, type'⟩ := by
    intro position name type' htype
    rw [assigned?_beginObject] at htype
    split at htype
    · rename_i hown
      obtain ⟨rfl, rfl⟩ := hown
      obtain rfl := Option.some.inj htype
      exact Or.inr fun b hb => partsListed_finish hresolve hkind hlog huses
        (resolve_eq_of_refersTo hb ⟨_, hresolve⟩)
    · exact Or.inl htype
  constructor
  case wellNamed => exact hmakes.wellNamed hwell
  case keeps => exact hmakes.extends.keeps hwell
  case taken => exact hmakes.extends.taken
  case stands => exact fun x hx => (hlog.stands x hx).mono hfinished
  case fresh =>
    intro x hx hends
    obtain ⟨hmem, hfresh⟩ := hlog.fresh x hx hends
    rw [taken_beginObject] at hfresh
    rw [Registry.finish, Registry.names_setTypes]
    exact ⟨hmem, fun htaken => hfresh (List.mem_cons_of_mem _ htaken)⟩
  case apart => exact hlog.apart
  case outermost => exact hlog.outermost
  case below =>
    intro x hx
    obtain ⟨t, ht, hbelow⟩ := hlog.below x hx
    exact ⟨t, ht, fun r'' hkeeps => hbelow r'' (hfinished.trans hkeeps)⟩
  case assigned =>
    intro position name type' htype
    rw [Registry.finish, Registry.assigned?_setTypes] at htype
    rcases hlog.assigned position name type' htype with htype | hlisted
    · exact hbegun position name type' htype
    · exact Or.inr fun b hb => (hlisted b hb).mono (List.Subset.refl _) hfinished
  case parts =>
    intro x hx
    rcases hlog.parts x hx with hlisted | ⟨name, hname, htype⟩
    · exact Or.inl (hlisted.mono (List.Subset.refl _) hfinished)
    · rcases hbegun x.position name x.type htype with htype | hlisted
      · exact Or.inr ⟨name, hname, htype⟩
      · exact Or.inl (hlisted x.schema hname)

/-- An object is listed behind its visible properties, under a name that none of them has. -/
theorem records_of_finished :
    let name := claimedName s component (baseName component hint) r
    Records s.components [⟨s.position, a, .named name⟩] (log ++ [⟨s.position, a, .named name⟩]) r
        (r₂.finish s.position (madeType s component hint resolved members r)) ∧
      ∀ x ∈ log, x.EndsInline s.components → x.type.leaf ≠ name := by
  intro name
  have hmakes := makes_finished hwell hresolve hkind hnew hmembers hvisible
  have hclaimed : name ∈
      (beginObject s component (baseName component hint) r).2.names.taken := by
    rw [taken_beginObject]
    exact List.mem_cons_self ..
  have hapart : ∀ x ∈ log, x.EndsInline s.components → x.type.leaf ≠ name :=
    fun x hx hends heq => (hlog.fresh x hx hends).2 (heq ▸ hclaimed)
  refine ⟨?_, hapart⟩
  refine (records_finish hwell hresolve hkind hnew hmembers hlog huses hvisible).snoc
    (hmakes.built hwell).2 (fun _ => ?_)
    (fun x hx hends heq => hapart x hx hends (congrArg TypeRef.leaf heq))
    (fun t ht r'' hkeeps => ?_)
    (Or.inl (partsListed_finish hresolve hkind hlog huses rfl))
  · rw [Registry.finish, Registry.names_setTypes]
    exact ⟨hmembers.extends.taken _ hclaimed,
      not_mem_taken_claimedName s component (baseName component hint) r⟩
  · obtain ⟨y, hy, huse⟩ := exists_of_forall₂ huses ht
    have hregistered := hkeeps.finished s.position _ (madeType s component hint resolved members r)
      ((Registry.registered?_finish ..).trans (if_pos ⟨rfl, rfl⟩))
    exact ⟨y, (partOf_named_iff hresolve hkind hregistered).mpr hy, huse⟩

end Objects

/-! ## The list for one schema -/

theorem sizeOf_le_excludeNullIf (type : TypeRef) (condition : Bool) :
    sizeOf type ≤ sizeOf (type.excludeNullIf condition) := by
  cases type <;> cases condition <;> simp [TypeRef.excludeNullIf]

theorem records_of_objectType
    (ih : ∀ {a hint r type r'}, typeOf s bound a hint r = .ok (type, r') → r.WellNamed →
      Records s.components [⟨s.position, a, type⟩] (translations s bound a hint r) r r')
    (h : typeOf s (bound + 1) a hint r = .ok (type, r')) (hwell : r.WellNamed)
    (hresolve : s.resolve a = .ok (component, resolved))
    (hkind : resolved.kind = .object properties required) (hsome : properties.isEmpty = false) :
    let log := partTranslations (typeOf s bound) (translations s bound) s component
      (baseName component hint) resolved.kind r
    Records s.components [⟨s.position, a, type⟩] (log ++ [⟨s.position, a, type⟩]) r r' ∧
      ∀ x ∈ log, x.EndsInline s.components → x.type.leaf ≠ type.leaf := by
  rw [typeOf_of_object hresolve hkind hsome] at h
  unfold objectType at h
  rw [hkind]
  cases hknown : component.bind (r.assigned? s.position) with
  | some known =>
    rw [hknown] at h
    rw [partTranslations_of_known hknown]
    obtain ⟨name, rfl, hassigned⟩ := Option.bind_eq_some_iff.mp hknown
    obtain ⟨rfl, rfl⟩ := Prod.mk.inj (Except.ok.inj h)
    exact ⟨records_of_known hwell hresolve hkind hassigned,
      fun _ hx => absurd hx List.not_mem_nil⟩
  | none =>
    rw [hknown] at h
    rw [partTranslations_of_new hknown]
    obtain ⟨⟨members, r₂⟩, hmembers, h⟩ := bind_eq_ok.mp h
    have hmakes := makesMembers_of_membersOf makes_of_typeOf hmembers
    have hended : endObject s component (madeType s component hint resolved members r) r₂ =
        (type, r') := Except.ok.inj h
    by_cases hvisible : s.visible properties = []
    · obtain ⟨rfl, rfl⟩ := Prod.mk.inj hended
      rw [propertyTasks, hvisible]
      exact ⟨records_of_given_up hwell hresolve hkind hknown hmakes hvisible,
        fun _ hx => absurd hx List.not_mem_nil⟩
    · have hone : ∀ owner, ∀ t ∈ propertyTasks s owner properties, ∀ {r type r'},
          typeOf s bound t.schema t.hint r = .ok (type, r') → r.WellNamed →
            Records s.components [t.done type] (translations s bound t.schema t.hint r) r r' := by
        rintro owner t ht r type r' h hwell
        obtain ⟨p, -, rfl⟩ := List.mem_map.mp ht
        exact ih h hwell
      obtain ⟨made, new, hturn, heq, huses⟩ := madeInTurn_of_membersOf hmembers
      rw [List.nil_append] at heq
      subst heq
      rw [endObject_of_visible hwell hmakes hvisible] at hended
      obtain ⟨rfl, rfl⟩ := Prod.mk.inj hended
      exact records_of_finished hwell hresolve hkind hknown hmakes
        (records_inTurn (hone _) hturn hwell.beginObject) huses hvisible

/-- What is listed for a schema; among the types that end inline and have the same name as its own,
none is larger. -/
theorem records_translations (h : typeOf s bound a hint r = .ok (type, r'))
    (hwell : r.WellNamed) :
    Records s.components [⟨s.position, a, type⟩] (translations s bound a hint r) r r' ∧
      ∀ x ∈ translations s bound a hint r, x.EndsInline s.components →
        x.type.leaf = type.leaf → sizeOf x.type ≤ sizeOf type := by
  induction bound generalizing a hint r type r' with
  | zero => exact nomatch h
  | succ bound ih =>
    have hmakes := makes_of_typeOf h
    obtain ⟨⟨component, resolved⟩, hresolve, -⟩ := bind_eq_ok.mp h
    rw [translations_eq h hresolve]
    have hself : ∀ x ∈ [(⟨s.position, a, type⟩ : Translation)], sizeOf x.type ≤ sizeOf type :=
      List.forall_mem_singleton.mpr (Nat.le_refl _)
    obtain hkind | hkind | hkind | ⟨items, hkind⟩ | ⟨properties, required, hkind, hsome⟩ :=
      kind_cases resolved.kind
    · rw [partTranslations_of_leaf (Or.inl hkind)]
      exact ⟨records_of_leaf h hwell hresolve (Or.inl hkind), fun x hx _ _ => hself x hx⟩
    · rw [partTranslations_of_leaf (Or.inr hkind)]
      exact ⟨records_of_leaf h hwell hresolve (Or.inr hkind), fun x hx _ _ => hself x hx⟩
    · rw [typeOf_of_array_none hresolve hkind] at h
      exact nomatch h
    · rw [typeOf_of_array hresolve hkind] at h
      obtain ⟨⟨item, r₁⟩, hitem, h⟩ := bind_eq_ok.mp h
      obtain ⟨⟨itemComponent, resolvedItem⟩, hitems, h⟩ := bind_eq_ok.mp h
      obtain ⟨rfl, rfl⟩ := Prod.mk.inj (Except.ok.inj h)
      obtain ⟨hlog, hlargest⟩ := ih hitem hwell
      have hsize : sizeOf item <
          sizeOf (TypeRef.list (item.excludeNullIf !resolvedItem.data.nullable)) := by
        have hle := sizeOf_le_excludeNullIf item !resolvedItem.data.nullable
        simp only [TypeRef.list.sizeOf_spec]
        omega
      have hname : (TypeRef.list (item.excludeNullIf !resolvedItem.data.nullable)).leaf =
          item.leaf := by rw [TypeRef.leaf, leaf_excludeNullIf]
      rw [hkind]
      refine ⟨records_of_array hmakes hwell hresolve hkind hsize hlog hlargest, ?_⟩
      refine List.forall_mem_append.mpr ⟨fun x hx hends heq => ?_, fun x hx _ _ => hself x hx⟩
      exact Nat.le_of_lt (Nat.lt_of_le_of_lt (hlargest x hx hends (heq.trans hname)) hsize)
    · obtain ⟨hlog, hapart⟩ :=
        records_of_objectType (fun h hwell => (ih h hwell).1) h hwell hresolve hkind hsome
      refine ⟨hlog, List.forall_mem_append.mpr ⟨?_, fun x hx _ _ => hself x hx⟩⟩
      exact fun x hx hends heq => absurd heq (hapart x hx hends)

end Schemas

end ApiGraph.Generation
