import ApiGraph.Proofs.Generation.Cycles
import ApiGraph.Proofs.Lists
import Mathlib.Data.List.Perm.Subperm

/-!
# The bound on the nesting

`schemaType` works with a bound on the nesting of schemas.  The bound costs nothing: a schema that
has a type, or a fault of its own, under any bound at all has the same under this one
(`schemaType_eq_typeOf`).  So `Fault.unbounded` is reported for those schemas only that no bound is
enough for (`schemaType_eq_unbounded_iff`), and for documents only that have such a schema
(`exceedsAllBounds_of_schemaOf`).

On the way down the schemas that were entered since a component was last begun are all different,
because one that is entered again leads to itself.  They are schemas of the document, so there are
no more of them than `nodes`, and no more components are begun than there are.
-/

namespace ApiGraph.OpenApi.Schema

/-! ## The schemas of a document -/

mutual

/-- The schemas and references inside a schema. -/
def nodes : Schema → List (RefOr Schema)
  | .mk _ kind => nodesOfKind kind

def nodesOfKind : SchemaKind Schema → List (RefOr Schema)
  | .array (some items) => nodesOfRef items
  | .object properties _ => nodesOfProperties properties
  | _ => []

/-- The schemas and references that a schema consists of, with itself. -/
def nodesOfRef : RefOr Schema → List (RefOr Schema)
  | .reference target => [.reference target]
  | .item a => .item a :: nodes a

def nodesOfProperties : List (String × RefOr Schema) → List (RefOr Schema)
  | [] => []
  | (_, a) :: rest => nodesOfRef a ++ nodesOfProperties rest

end

mutual

theorem length_nodes : ∀ a : Schema, (nodes a).length + 1 = size a
  | .mk _ kind => by
    rw [nodes, size, length_nodesOfKind kind, Nat.add_comm]

theorem length_nodesOfKind : ∀ kind : SchemaKind Schema,
    (nodesOfKind kind).length = sizeOfKind kind
  | .array (some items) => by
    rw [nodesOfKind, sizeOfKind, length_nodesOfRef items]
  | .object properties _ => by
    rw [nodesOfKind, sizeOfKind, length_nodesOfProperties properties]
  | .array none | .string | .integer | .number | .boolean | .any => rfl

theorem length_nodesOfRef : ∀ a : RefOr Schema, (nodesOfRef a).length = sizeOfRef a
  | .reference _ => rfl
  | .item a => by
    rw [nodesOfRef, sizeOfRef, List.length_cons, length_nodes a]

theorem length_nodesOfProperties : ∀ properties : List (String × RefOr Schema),
    (nodesOfProperties properties).length = sizeOfProperties properties
  | [] => rfl
  | (_, a) :: rest => by
    rw [nodesOfProperties, sizeOfProperties, List.length_append, length_nodesOfRef a,
      length_nodesOfProperties rest]

end

theorem mem_nodesOfRef_self (a : RefOr Schema) : a ∈ nodesOfRef a := by
  cases a with
  | reference target => exact List.mem_singleton_self _
  | item a => exact List.mem_cons_self ..

theorem nodesOfRef_subset_nodesOfProperties {properties : List (String × RefOr Schema)}
    {p : String × RefOr Schema} (h : p ∈ properties) :
    nodesOfRef p.2 ⊆ nodesOfProperties properties := by
  induction properties with
  | nil => exact absurd h List.not_mem_nil
  | cons q rest ih =>
    rw [nodesOfProperties]
    rcases List.mem_cons.mp h with rfl | h
    · exact List.subset_append_left ..
    · exact List.Subset.trans (ih h) (List.subset_append_right ..)

mutual

theorem nodesOfRef_subset_nodes {b : RefOr Schema} :
    ∀ {a : Schema}, b ∈ nodes a → nodesOfRef b ⊆ nodes a
  | .mk _ _, h => nodesOfRef_subset_nodesOfKind h

theorem nodesOfRef_subset_nodesOfKind {b : RefOr Schema} :
    ∀ {kind : SchemaKind Schema}, b ∈ nodesOfKind kind → nodesOfRef b ⊆ nodesOfKind kind
  | .array (some _), h => nodesOfRef_subset h
  | .object _ _, h => nodesOfRef_subset_of_mem_nodesOfProperties h
  | .array none, h | .string, h | .integer, h | .number, h | .boolean, h | .any, h => nomatch h

/-- What is inside a part is inside the whole. -/
theorem nodesOfRef_subset {b : RefOr Schema} :
    ∀ {a : RefOr Schema}, b ∈ nodesOfRef a → nodesOfRef b ⊆ nodesOfRef a
  | .reference _, h => by
    rw [List.mem_singleton.mp h]
    exact List.Subset.refl _
  | .item _, h => by
    rcases List.mem_cons.mp h with rfl | h
    · exact List.Subset.refl _
    · exact List.Subset.trans (nodesOfRef_subset_nodes h) (List.subset_cons_self ..)

theorem nodesOfRef_subset_of_mem_nodesOfProperties {b : RefOr Schema} :
    ∀ {properties : List (String × RefOr Schema)}, b ∈ nodesOfProperties properties →
      nodesOfRef b ⊆ nodesOfProperties properties
  | _ :: _, h => by
    rcases List.mem_append.mp h with h | h
    · exact List.Subset.trans (nodesOfRef_subset h) (List.subset_append_left ..)
    · exact List.Subset.trans (nodesOfRef_subset_of_mem_nodesOfProperties h)
        (List.subset_append_right ..)

end

end ApiGraph.OpenApi.Schema

namespace ApiGraph.Generation

open ApiGraph.GraphQL hiding Schema
open ApiGraph.OpenApi (RefOr Schema SchemaKind Components)

variable {s : Setting}

/-- The schemas that can be met when one is worked on: its own, and those of the components. -/
def reachableNodes (c : Components) (a : RefOr Schema) : List (RefOr Schema) :=
  Schema.nodesOfProperties c.schemas ++ Schema.nodesOfRef a

theorem length_reachableNodes (c : Components) (a : RefOr Schema) :
    (reachableNodes c a).length = componentsSize c + Schema.sizeOfRef a := by
  rw [reachableNodes, List.length_append, Schema.length_nodesOfProperties,
    Schema.length_nodesOfRef, componentsSize]

theorem nodesOfRef_subset_reachableNodes {c : Components} {a b : RefOr Schema}
    (h : b ∈ reachableNodes c a) : Schema.nodesOfRef b ⊆ reachableNodes c a := by
  rcases List.mem_append.mp h with h | h
  · exact List.Subset.trans (Schema.nodesOfRef_subset_of_mem_nodesOfProperties h)
      (List.subset_append_left ..)
  · exact List.Subset.trans (Schema.nodesOfRef_subset h) (List.subset_append_right ..)

/-- What a schema comes to when it is followed is inside it, or a component. -/
theorem nodes_subset_of_resolve {a b : RefOr Schema} {component : Option String}
    {resolved : Schema} (hb : b ∈ reachableNodes s.components a)
    (hresolve : s.resolve b = .ok (component, resolved)) :
    Schema.nodes resolved ⊆ reachableNodes s.components a := by
  cases component with
  | none =>
    cases b with
    | item value =>
      obtain ⟨-, rfl⟩ := Prod.mk.inj (Except.ok.inj hresolve)
      exact List.Subset.trans (List.subset_cons_self ..) (nodesOfRef_subset_reachableNodes hb)
    | reference target =>
      obtain ⟨_, _, heq⟩ := map_eq_ok.mp (mapError_eq_ok.mp hresolve)
      exact nomatch (Prod.mk.inj heq).1
  | some name =>
    have hmem := Dictionary.mem_of_get? (get?_schemas_of_resolve hresolve)
    have hcomponent := Schema.nodesOfRef_subset_nodesOfProperties hmem
    refine List.Subset.trans (List.subset_cons_self ..) (List.Subset.trans hcomponent ?_)
    exact List.subset_append_left ..

theorem mem_reachableNodes_item {a b items : RefOr Schema} {component : Option String}
    {resolved : Schema} (hb : b ∈ reachableNodes s.components a)
    (hresolve : s.resolve b = .ok (component, resolved))
    (hkind : resolved.kind = .array (some items)) : items ∈ reachableNodes s.components a := by
  refine nodes_subset_of_resolve hb hresolve ?_
  obtain ⟨data, kind⟩ := resolved
  obtain rfl : kind = .array (some items) := hkind
  exact Schema.mem_nodesOfRef_self items

theorem mem_reachableNodes_member {a b : RefOr Schema} {component : Option String}
    {resolved : Schema} {properties : List (String × RefOr Schema)} {required : List String}
    {p : String × RefOr Schema} (hb : b ∈ reachableNodes s.components a)
    (hresolve : s.resolve b = .ok (component, resolved))
    (hkind : resolved.kind = .object properties required) (hp : p ∈ properties) :
    p.2 ∈ reachableNodes s.components a := by
  refine nodes_subset_of_resolve hb hresolve ?_
  obtain ⟨data, kind⟩ := resolved
  obtain rfl : kind = .object properties required := hkind
  exact Schema.nodesOfRef_subset_nodesOfProperties hp (Schema.mem_nodesOfRef_self p.2)

/-! ## What is left -/

/-- How many components have no type in the position yet. -/
def pendingComponents (s : Setting) (r : Registry) : Nat :=
  s.components.schemas.countP fun p => (r.assigned? s.position p.1).isNone

theorem isNone_assigned? {r : Registry} {position : Position} {name : String} :
    (r.assigned? position name).isNone = true ↔ ¬ r.Has position name := by
  rw [Registry.Has, Option.isNone_iff_eq_none, Option.not_isSome_iff_eq_none]

theorem pendingComponents_le {r r' : Registry}
    (h : ∀ name, r.Has s.position name → r'.Has s.position name) :
    pendingComponents s r' ≤ pendingComponents s r := by
  refine List.countP_mono_left fun p _ hnone => ?_
  rw [isNone_assigned?] at hnone ⊢
  exact fun hhas => hnone (h p.1 hhas)

theorem pendingComponents_lt {r r' : Registry} {b : RefOr Schema} {name : String}
    {resolved : Schema} (h : ∀ name, r.Has s.position name → r'.Has s.position name)
    (hresolve : s.resolve b = .ok (some name, resolved)) (hnew : ¬ r.Has s.position name)
    (hdone : r'.Has s.position name) : pendingComponents s r' < pendingComponents s r := by
  have hmem := Dictionary.mem_of_get? (get?_schemas_of_resolve hresolve)
  refine countP_lt_countP hmem (fun p _ hnone => ?_) ?_ (isNone_assigned?.mpr hnew)
  · rw [isNone_assigned?] at hnone ⊢
    exact fun hhas => hnone (h p.1 hhas)
  · rw [Option.isNone_eq_false_iff]
    exact hdone

/-- On the way down to a schema: those that were entered since a component was last begun are
different schemas of the document and lead to it. -/
structure Descent (s : Setting) (all entered : List (RefOr Schema)) (a : RefOr Schema)
    (r : Registry) : Prop where
  mem : a ∈ all
  nodup : entered.Nodup
  subset : entered ⊆ all
  leads : ∀ b ∈ entered, Relation.TransGen (Leads s (r.Has s.position)) b a

/-- How far down it can go from there. -/
def depthLeft (s : Setting) (all entered : List (RefOr Schema)) (r : Registry) : Nat :=
  pendingComponents s r * (all.length + 1) + (all.length - entered.length)

variable {all entered : List (RefOr Schema)} {a b : RefOr Schema} {r r' : Registry}

/-- From an array or an object that is no component to a schema that it leads to. -/
theorem Descent.step (hdescent : Descent s all entered a r) (hnew : a ∉ entered) (hb : b ∈ all)
    (hr : ∀ name, r.Has s.position name → r'.Has s.position name)
    (hleads : Leads s (r'.Has s.position) a b) :
    Descent s all (a :: entered) b r' ∧
      depthLeft s all (a :: entered) r' < depthLeft s all entered r := by
  have hnodup : (a :: entered).Nodup := List.nodup_cons.mpr ⟨hnew, hdescent.nodup⟩
  have hsubset : a :: entered ⊆ all := List.cons_subset.mpr ⟨hdescent.mem, hdescent.subset⟩
  refine ⟨⟨hb, hnodup, hsubset, fun c hc => ?_⟩, ?_⟩
  · rcases List.mem_cons.mp hc with rfl | hc
    · exact .single hleads
    · have hkept := Relation.TransGen.mono (fun _ _ => Leads.mono hr) _ _ (hdescent.leads c hc)
      exact hkept.tail hleads
  · have hlength := (List.subperm_of_subset hnodup hsubset).length_le
    have hpending := Nat.mul_le_mul_right (all.length + 1) (pendingComponents_le hr)
    rw [List.length_cons] at hlength
    rw [depthLeft, depthLeft, List.length_cons]
    omega

/-- From a component that is begun to a member. -/
theorem Descent.begin (entered : List (RefOr Schema)) {name : String} {resolved : Schema}
    (hb : b ∈ all)
    (hresolve : s.resolve a = .ok (some name, resolved))
    (hr : ∀ name, r.Has s.position name → r'.Has s.position name)
    (hnew : ¬ r.Has s.position name) (hdone : r'.Has s.position name) :
    Descent s all [] b r' ∧ depthLeft s all [] r' < depthLeft s all entered r := by
  refine ⟨⟨hb, List.nodup_nil, List.nil_subset _, fun _ hc => absurd hc List.not_mem_nil⟩, ?_⟩
  have hpending := Nat.mul_le_mul_right (all.length + 1)
    (Nat.succ_le_of_lt (pendingComponents_lt hr hresolve hnew hdone))
  rw [Nat.succ_mul] at hpending
  rw [depthLeft, depthLeft, List.length_nil]
  omega

/-- From an object to a member, when the members before it have been made.  A component is begun
here, and the way down starts anew; any other object is one more schema on it. -/
theorem Descent.toMember {component : Option String} {resolved : Schema}
    {properties before after : List (String × RefOr Schema)} {p : String × RefOr Schema}
    {required : List String} {base owner : String} {members : List InputValue}
    (hdescent : Descent s (reachableNodes s.components b) entered a r) (hnew : a ∉ entered)
    (hresolve : s.resolve a = .ok (component, resolved))
    (hkind : resolved.kind = .object properties required)
    (hassigned : component.bind (r.assigned? s.position) = none)
    (heq : properties = before ++ p :: after)
    (hbefore : MakesMembers s owner required [] before (beginObject s component base r).2 members
      r')
    (hshows : s.shows p.2 = true) :
    ∃ entered', Descent s (reachableNodes s.components b) entered' p.2 r' ∧
      depthLeft s (reachableNodes s.components b) entered' r' <
        depthLeft s (reachableNodes s.components b) entered r := by
  obtain ⟨hgrown, hnames, hcovered⟩ := hbefore.grown
  have hr : ∀ name, r.Has s.position name → r'.Has s.position name := fun name hname =>
    hgrown.has _ _ (has_beginObject.mpr (Or.inr hname))
  have hp : p ∈ properties := heq ▸ List.mem_append_right _ (List.mem_cons_self ..)
  have hmem := mem_reachableNodes_member hdescent.mem hresolve hkind hp
  cases component with
  | none =>
    have hworked : Worked s (r'.Has s.position) before :=
      ⟨hbefore.resolves, hnames List.nodup_nil, hcovered⟩
    exact ⟨_, hdescent.step hnew hmem hr (.member hresolve (heq ▸ hkind) hworked hshows)⟩
  | some name =>
    have hdone : r'.Has s.position name :=
      hgrown.has _ _ (has_beginObject.mpr (Or.inl ⟨rfl, rfl⟩))
    have hunassigned : ¬ r.Has s.position name :=
      isNone_assigned?.mp (Option.isNone_iff_eq_none.mpr hassigned)
    exact ⟨_, Descent.begin entered hmem hresolve hr hunassigned hdone⟩

/-! ## The bound is large enough -/

theorem bind_congr_of_ok {ε α β : Type} {x : Except ε α} {f g : α → Except ε β}
    (h : ∀ a, x = .ok a → f a = g a) : (x >>= f) = (x >>= g) := by
  cases x with
  | error e => rfl
  | ok a => exact h a rfl

/-- Members do not depend on how types are found, if those of their schemas do not. -/
theorem membersOf_congr
    {make make' : RefOr Schema → String → Registry → Except Fault (TypeRef × Registry)}
    {owner : String} {required : List String} {properties : List (String × RefOr Schema)}
    {members : List InputValue} {r : Registry}
    (hmake : ∀ before p after members' r', properties = before ++ p :: after →
      membersOf make s owner required members before r = .ok (members', r') →
        s.shows p.2 = true →
          make p.2 (propertyHint owner p.1) r' ≠ .error .unbounded →
            make' p.2 (propertyHint owner p.1) r' = make p.2 (propertyHint owner p.1) r')
    (h : membersOf make s owner required members properties r ≠ .error .unbounded) :
    membersOf make' s owner required members properties r =
      membersOf make s owner required members properties r := by
  induction properties generalizing members r with
  | nil => rfl
  | cons p rest ih =>
    obtain ⟨property, schema⟩ := p
    cases hresolve : s.resolve schema with
    | error f => rw [membersOf_of_unresolved hresolve, membersOf_of_unresolved hresolve]
    | ok found =>
      obtain ⟨component, resolved⟩ := found
      have hshows := shows_of_resolve hresolve
      cases hhides : s.hides resolved.data with
      | true =>
        rw [membersOf_of_hides hresolve hhides] at h ⊢
        rw [membersOf_of_hides hresolve hhides]
        refine ih (fun before p after members' r' heq hbefore => ?_) h
        refine hmake ((property, schema) :: before) p after members' r' (congrArg _ heq) ?_
        rw [membersOf_of_hides hresolve hhides]
        exact hbefore
      | false =>
        rw [hhides] at hshows
        rw [membersOf_of_shows hresolve hhides] at h ⊢
        rw [membersOf_of_shows hresolve hhides]
        have hbounded : make schema (propertyHint owner property) r ≠ .error .unbounded :=
          fun heq => h (bind_eq_error.mpr (Or.inl heq))
        rw [hmake [] (property, schema) rest members r rfl rfl hshows hbounded]
        refine bind_congr_of_ok fun found htype => bind_congr_of_ok fun members₁ hadd => ?_
        refine ih (fun before p after members' r' heq hbefore => ?_) fun heq => ?_
        · refine hmake ((property, schema) :: before) p after members' r' (congrArg _ heq) ?_
          rw [membersOf_of_shows hresolve hhides]
          exact bind_eq_ok.mpr ⟨found, htype, bind_eq_ok.mpr ⟨members₁, hadd, hbefore⟩⟩
        · refine h (bind_eq_error.mpr (Or.inr ⟨found, htype, ?_⟩))
          exact bind_eq_error.mpr (Or.inr ⟨members₁, hadd, heq⟩)

/-- The same for an object. -/
theorem objectType_congr {m n : Nat} {component : Option String} {resolved : Schema}
    {properties : List (String × RefOr Schema)} {required : List String} {hint : String}
    (htypes : ∀ {entered a hint r}, Descent s (reachableNodes s.components b) entered a r →
      depthLeft s (reachableNodes s.components b) entered r < m →
        typeOf s n a hint r ≠ .error .unbounded →
          typeOf s m a hint r = typeOf s n a hint r)
    (hdescent : Descent s (reachableNodes s.components b) entered a r)
    (hdepth : depthLeft s (reachableNodes s.components b) entered r < m + 1) (hnew : a ∉ entered)
    (hresolve : s.resolve a = .ok (component, resolved))
    (hkind : resolved.kind = .object properties required)
    (h : objectType (typeOf s n) s component hint resolved.data properties required r ≠
      .error .unbounded) :
    objectType (typeOf s m) s component hint resolved.data properties required r =
      objectType (typeOf s n) s component hint resolved.data properties required r := by
  unfold objectType at h ⊢
  cases hassigned : component.bind (r.assigned? s.position) with
  | some type => rfl
  | none =>
    rw [hassigned] at h
    refine congrArg (· >>= _) (membersOf_congr (fun before p after members r' heq hbefore => ?_)
      fun heq => h (bind_eq_error.mpr (Or.inl heq)))
    intro hshows hbounded
    obtain ⟨_, hbelow, hless⟩ := hdescent.toMember hnew hresolve hkind hassigned heq
      (makesMembers_of_membersOf makes_of_typeOf hbefore) hshows
    exact htypes hbelow (by omega) hbounded

/-- On the way down, what is left of the depth is bound enough. -/
theorem typeOf_eq_of_depthLeft_lt {m n : Nat} {hint : String}
    (hdescent : Descent s (reachableNodes s.components b) entered a r)
    (hdepth : depthLeft s (reachableNodes s.components b) entered r < m)
    (h : typeOf s n a hint r ≠ .error .unbounded) :
    typeOf s m a hint r = typeOf s n a hint r := by
  induction n generalizing m entered a hint r with
  | zero => exact absurd rfl h
  | succ n ih =>
    obtain ⟨m, rfl⟩ := Nat.exists_eq_succ_of_ne_zero (Nat.ne_zero_of_lt hdepth)
    -- The schema is not met again, or no bound would have been enough.
    have hnew : a ∉ entered := fun hmem =>
      h (unbounded_of_cycle (hdescent.leads a hmem) _ fun _ hname => hname)
    cases hresolve : s.resolve a with
    | error f => rw [typeOf_of_unresolved hresolve, typeOf_of_unresolved hresolve]
    | ok found =>
      obtain ⟨component, resolved⟩ := found
      obtain ⟨_, hkind⟩ | hkind | hkind | ⟨items, hkind⟩ | ⟨properties, required, hkind, hsome⟩ :=
        kind_cases resolved.kind
      · rw [typeOf_of_scalar hresolve hkind, typeOf_of_scalar hresolve hkind]
      · rw [typeOf_of_shapeless hresolve hkind, typeOf_of_shapeless hresolve hkind]
      · rw [typeOf_of_array_none hresolve hkind, typeOf_of_array_none hresolve hkind]
      · rw [typeOf_of_array hresolve hkind] at h ⊢
        rw [typeOf_of_array hresolve hkind]
        obtain ⟨hitems, hless⟩ := hdescent.step hnew
          (mem_reachableNodes_item hdescent.mem hresolve hkind) (fun _ hname => hname)
          (.item hresolve hkind)
        rw [ih hitems (by omega) fun heq => h (bind_eq_error.mpr (Or.inl heq))]
      · rw [typeOf_of_object hresolve hkind hsome] at h ⊢
        rw [typeOf_of_object hresolve hkind hsome]
        exact objectType_congr ih hdescent hdepth hnew hresolve hkind h

/-- At the start, nothing was entered. -/
theorem descent_start (c : Components) (position : Position) (a : RefOr Schema) (r : Registry) :
    Descent ⟨c, position⟩ (reachableNodes c a) [] a r where
  mem := List.mem_append_right _ (Schema.mem_nodesOfRef_self a)
  nodup := List.nodup_nil
  subset := List.nil_subset _
  leads := fun _ hb => absurd hb List.not_mem_nil

theorem depthLeft_start_lt (c : Components) (position : Position) (a : RefOr Schema)
    (r : Registry) :
    depthLeft ⟨c, position⟩ (reachableNodes c a) [] r < nestingBound c a := by
  have hpending : pendingComponents ⟨c, position⟩ r ≤ c.schemas.length := List.countP_le_length
  have hless := Nat.mul_le_mul_right ((reachableNodes c a).length + 1) hpending
  rw [depthLeft, nestingBound, ← length_reachableNodes, Nat.succ_mul, List.length_nil]
  omega

/-- The type of a schema under any bound that is enough for it. -/
theorem schemaType_eq_typeOf {c : Components} {position : Position} {a : RefOr Schema}
    {hint : String} {r : Registry} {n : Nat}
    (h : typeOf ⟨c, position⟩ n a hint r ≠ .error .unbounded) :
    schemaType c position a hint r = typeOf ⟨c, position⟩ n a hint r :=
  typeOf_eq_of_depthLeft_lt (descent_start c position a r) (depthLeft_start_lt c position a r) h

/-- The bound is exceeded exactly by those schemas that exceed all bounds. -/
theorem schemaType_eq_unbounded_iff {c : Components} {position : Position} {a : RefOr Schema}
    {hint : String} {r : Registry} :
    schemaType c position a hint r = .error .unbounded ↔
      ∀ n, typeOf ⟨c, position⟩ n a hint r = .error .unbounded := by
  constructor
  · intro h n
    by_contra hn
    exact hn ((schemaType_eq_typeOf hn).symm.trans h)
  · exact fun h => h _

/-- The bound is exceeded for a document when it is for a schema of one of its endpoints. -/
theorem exists_unbounded_of_schemaOf {j : Json} (h : schemaOf j = .error .unbounded) :
    ∃ d endpoints, documentOf j = .ok d ∧ d.endpoints = .ok endpoints ∧
      ∃ e ∈ endpoints, ∃ position a, WorksOn e position a ∧
        ∃ hint r, schemaType d.components position a hint r = .error .unbounded := by
  obtain ⟨d, endpoints, hdocument, hendpoints, hroots⟩ :=
    fault_of_schemaOf (fun _ => Fault.noConfusion) h
  rcases fault_of_rootFields (fun _ => Fault.noConfusion) hroots with
    ⟨e, he, position, a, hworks, hfails⟩ | ⟨⟨name, hname⟩, -⟩
  · exact ⟨d, endpoints, hdocument, hendpoints, e, he, position, a, hworks, hfails⟩
  · exact nomatch hname

/-- For an endpoint of the document there is a schema whose type is not finished under any bound. -/
def ExceedsAllBounds (j : Json) : Prop :=
  ∃ d endpoints, documentOf j = .ok d ∧ d.endpoints = .ok endpoints ∧
    ∃ e ∈ endpoints, ∃ position a, WorksOn e position a ∧
      ∃ hint r, ∀ n, typeOf ⟨d.components, position⟩ n a hint r = .error .unbounded

/-- Where the bound is exceeded, no other one would have been enough. -/
theorem exceedsAllBounds_of_schemaOf {j : Json} (h : schemaOf j = .error .unbounded) :
    ExceedsAllBounds j := by
  obtain ⟨d, endpoints, hdocument, hendpoints, e, he, position, a, hworks, hint, r, hfails⟩ :=
    exists_unbounded_of_schemaOf h
  exact ⟨d, endpoints, hdocument, hendpoints, e, he, position, a, hworks, hint, r,
    schemaType_eq_unbounded_iff.mp hfails⟩

end ApiGraph.Generation
