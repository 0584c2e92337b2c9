import ApiGraph.Proofs.Generation.Building
import ApiGraph.Proofs.Generation.Sound

/-!
# The names of the types of a schema

Names are handed out once, so no two types of a generated schema have the same name: neither two
types of one position, nor a type for answers and one for arguments, nor one of them and a root or
`JSON` (`nodup_typeNames`).
-/

namespace ApiGraph.Generation

open ApiGraph.GraphQL hiding Schema
open ApiGraph.OpenApi (Components Endpoint)

variable {c : Components} {r : Registry}

/-- Among things of different names, only one has the name that it has. -/
theorem filter_name_eq {α : Type} {name : α → String} {l : List α} (h : (l.map name).Nodup) {a : α}
    (ha : a ∈ l) : l.filter (fun b => name b == name a) = [a] := by
  induction l with
  | nil => exact absurd ha List.not_mem_nil
  | cons b l ih =>
    obtain ⟨hhead, htail⟩ := List.nodup_cons.mp h
    rcases List.mem_cons.mp ha with rfl | ha
    · rw [List.filter_cons, if_pos (beq_self_eq_true (name a))]
      refine congrArg (a :: ·) (List.filter_eq_nil_iff.mpr fun b hb hname => ?_)
      exact hhead (List.mem_map.mpr ⟨b, hb, beq_iff_eq.mp hname⟩)
    · have hne : ¬ (name b == name a) = true := by
        intro hname
        exact hhead (List.mem_map.mpr ⟨a, ha, (beq_iff_eq.mp hname).symm⟩)
      rw [List.filter_cons, if_neg hne]
      exact ih htail ha

/-- The names of the finished types are among those that are registered, in order. -/
theorem sublist_names_finished {types : Dictionary (Option Composite)}
    (h : ∀ e ∈ types, ∀ t, e.2 = some t → t.name = e.1) :
    ((finished types).map (·.name)).Sublist types.keys := by
  induction types with
  | nil => exact .slnil
  | cons e types ih =>
    obtain ⟨k, type⟩ := e
    have hrest := ih fun e he => h e (List.mem_cons_of_mem _ he)
    cases type with
    | none => exact hrest.cons k
    | some t =>
      have hname : t.name = k := h _ (List.mem_cons_self ..) t rfl
      have hcons : finished ((k, some t) :: types) = t :: finished types := rfl
      rw [hcons, List.map_cons, hname]
      exact hrest.cons_cons k

/-- The names of the types of a position. -/
def Registry.finishedNames (r : Registry) (position : Position) : List String :=
  (finished (r.types position)).map (·.name)

theorem mem_finished_of_registered? {position : Position} {name : String} {t : Composite}
    (h : r.registered? position name = some (some t)) : t ∈ finished (r.types position) :=
  List.mem_filterMap.mpr ⟨_, Dictionary.mem_of_get? h, rfl⟩

namespace Registry.WellNamed

variable (h : r.WellNamed)
include h

theorem sublist_finishedNames (position : Position) :
    (r.finishedNames position).Sublist (r.types position).keys :=
  sublist_names_finished (h.name position)

/-- What is finished is registered. -/
theorem exists_registered? {position : Position} {name : String}
    (hname : name ∈ r.finishedNames position) : ∃ e, r.registered? position name = some e := by
  obtain ⟨e, he, rfl⟩ := List.mem_map.mp ((h.sublist_finishedNames position).subset hname)
  exact ⟨e.2, Dictionary.get?_of_mem (h.nodup position) he⟩

theorem nodup_finishedNames (position : Position) : (r.finishedNames position).Nodup :=
  (h.nodup position).sublist (h.sublist_finishedNames position)

theorem disjoint_finishedNames :
    List.Disjoint (r.finishedNames .output) (r.finishedNames .input) := by
  intro name houtput hinput
  have hapart := h.apart .output .input name
    ((h.sublist_finishedNames .output).subset houtput)
    ((h.sublist_finishedNames .input).subset hinput)
  exact nomatch hapart

end Registry.WellNamed

theorem Registry.Sound.not_mem_fixedNames (h : r.Sound) {position : Position} {name : String}
    (hname : name ∈ r.finishedNames position) : name ∉ fixedNames := by
  obtain ⟨t, ht, rfl⟩ := List.mem_map.mp hname
  exact (h.finished position t ht).name_free

/-- The names of the roots. -/
theorem names_rootObjects (roots : Roots) :
    roots.objects.map (·.name) =
      if roots.mutation.isEmpty then [queryName] else [queryName, mutationName] := by
  rw [Roots.objects]
  cases roots.mutation.isEmpty <;> rfl

theorem rootNames_subset (roots : Roots) :
    roots.objects.map (·.name) ⊆ [queryName, mutationName] := by
  rw [names_rootObjects]
  split
  · exact List.subset_append_left [queryName] [mutationName]
  · exact List.Subset.refl _

theorem nodup_rootNames (roots : Roots) : (roots.objects.map (·.name)).Nodup := by
  rw [names_rootObjects]
  split
  · exact List.nodup_singleton _
  · decide

theorem typeNames_assemble (roots : Roots) (r : Registry) :
    (assemble roots r).typeNames =
      roots.objects.map (·.name) ++ r.finishedNames .output ++ r.finishedNames .input ++
        if r.usesJson then [jsonName] else [] := by
  rw [GraphQL.Schema.typeNames, objects_assemble, List.map_append, List.map_map]
  have hinputs : (assemble roots r).inputs.map (·.name) = r.finishedNames .input :=
    List.map_map
  rw [hinputs]
  rfl

theorem mem_typeNames_of_mem_finishedNames {roots : Roots} {position : Position} {name : String}
    (h : name ∈ r.finishedNames position) : name ∈ (assemble roots r).typeNames := by
  rw [typeNames_assemble]
  refine List.mem_append_left _ ?_
  cases position with
  | output => exact List.mem_append_left _ (List.mem_append_right _ h)
  | input => exact List.mem_append_right _ h

/-- The types of a schema apart from its roots and `JSON` are those that are registered. -/
theorem exists_mem_finishedNames {roots : Roots} {name : String}
    (hname : name ∈ (assemble roots r).typeNames) (hnot : name ∉ fixedNames) :
    ∃ position, name ∈ r.finishedNames position := by
  rw [typeNames_assemble] at hname
  rcases List.mem_append.mp hname with hname | hname
  · rcases List.mem_append.mp hname with hname | hname
    · rcases List.mem_append.mp hname with hname | hname
      · exact absurd (List.mem_append_left [jsonName] (rootNames_subset roots hname)) hnot
      · exact ⟨.output, hname⟩
    · exact ⟨.input, hname⟩
  · split at hname
    · exact absurd (List.mem_append_right [queryName, mutationName] hname) hnot
    · exact absurd hname List.not_mem_nil

theorem nodup_typeNames_assemble (roots : Roots) (hwell : r.WellNamed) (hsound : r.Sound) :
    (assemble roots r).typeNames.Nodup := by
  have hfixed : ∀ position, ∀ name ∈ r.finishedNames position, name ∉ fixedNames :=
    fun position name => hsound.not_mem_fixedNames
  have hroots : ∀ name ∈ roots.objects.map (·.name), name ∈ [queryName, mutationName] :=
    fun name hname => rootNames_subset roots hname
  have hrootsFixed : ∀ name ∈ roots.objects.map (·.name), name ∈ fixedNames :=
    fun name hname => List.mem_append_left [jsonName] (hroots name hname)
  have hobjects : (roots.objects.map (·.name) ++ r.finishedNames .output).Nodup := by
    refine (nodup_rootNames roots).append (hwell.nodup_finishedNames .output) ?_
    exact fun name hname hname' => hfixed .output name hname' (hrootsFixed name hname)
  have htypes : (roots.objects.map (·.name) ++ r.finishedNames .output ++
      r.finishedNames .input).Nodup := by
    refine hobjects.append (hwell.nodup_finishedNames .input) fun name hname hname' => ?_
    rcases List.mem_append.mp hname with hname | hname
    · exact hfixed .input name hname' (hrootsFixed name hname)
    · exact hwell.disjoint_finishedNames hname hname'
  rw [typeNames_assemble]
  split
  · refine htypes.append (List.nodup_singleton jsonName) (List.disjoint_singleton.mpr ?_)
    intro hjson
    have hmem : jsonName ∈ fixedNames := by decide
    rcases List.mem_append.mp hjson with hjson | hjson
    · rcases List.mem_append.mp hjson with hjson | hjson
      · exact absurd (hroots _ hjson) (by decide)
      · exact hfixed .output _ hjson hmem
    · exact hfixed .input _ hjson hmem
  · rw [List.append_nil]
    exact htypes

theorem wellNamed_of_makesFields {components : List String} {endpoints : List Endpoint}
    {roots : Roots} (hmakes : MakesFields c {} endpoints (.start components) roots r) :
    r.WellNamed :=
  (hmakes.built (.start components)).1.wellNamed

theorem MakesFields.nodup_typeNames {components : List String} {endpoints : List Endpoint}
    {roots : Roots} (hmakes : MakesFields c {} endpoints (.start components) roots r) :
    (assemble roots r).typeNames.Nodup :=
  nodup_typeNames_assemble roots (wellNamed_of_makesFields hmakes) (sound_of_makesFields hmakes).1

/-- No two types of a generated schema have the same name. -/
theorem MakesSchema.nodup_typeNames {j : Json} {schema : GraphQL.Schema}
    (h : MakesSchema j schema) : schema.typeNames.Nodup := by
  obtain ⟨_, _, hfields, _⟩ := h
  exact hfields.nodup_typeNames

end ApiGraph.Generation
