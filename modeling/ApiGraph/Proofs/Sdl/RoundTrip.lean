import ApiGraph.Proofs.Sdl.Definitions

/-!
# Printed schemas are read back

The text of a schema is a list of definitions on lines of their own.  Each of them begins in a way
that ends the one before it, so they are read one after the other, up to the roots.

* `read_print`: the text of a printable schema is read as `Schema.printedDocument`, unless one of
  the descriptions in it cannot be read; then reading breaks off.
-/

namespace ApiGraph.GraphQL.Sdl

open Token Reader

variable {rest : List Char}

/-! ## Documents -/

section Listed

variable {γ : Type} {text : γ → List Char} {descriptions : γ → List String}
  {value : γ → Definition} {l : List γ} {tail : List Char} {d : Document}

/-- Definitions on lines of their own, each of which ends the one before it. -/
structure Listed (text : γ → List Char) (descriptions : γ → List String) (value : γ → Definition)
    (l : List γ) : Prop where
  takes : ∀ x ∈ l, ∀ rest, StartsItem rest →
    Takes Reader.definition (text x) (descriptions x) (value x) rest
  starts : ∀ x ∈ l, ∀ rest, StartsItem (text x ++ rest)

theorem Listed.of_cons {x : γ} (h : Listed text descriptions value (x :: l)) :
    Listed text descriptions value l :=
  ⟨fun y hy => h.takes y (List.mem_cons_of_mem x hy),
    fun y hy => h.starts y (List.mem_cons_of_mem x hy)⟩

theorem Listed.startsItem (h : Listed text descriptions value l) (htail : StartsItem tail) :
    StartsItem (l.flatMap text ++ tail) := by
  cases l with
  | nil => exact htail
  | cons x l =>
    rw [List.flatMap_cons, List.append_assoc]
    exact h.starts x (List.mem_cons_self ..) _

theorem definitions_cons (n : Nat) (t : Token) (ts : List Token) :
    Reader.definitions (n + 1) (t :: ts) =
      match Reader.definition (t :: ts) with
      | .ok (found, rest) => (Reader.definitions n rest).map (found :: ·)
      | .error rest => .error rest :=
  rfl

/-- Definitions in front of others that are read. -/
theorem Listed.definitions (htail : StartsItem tail)
    (hread : ∀ n, (ofText tail).length ≤ n → Reader.definitions n (ofText tail) = .ok d) :
    ∀ {l : List γ} {n : Nat}, Listed text descriptions value l →
      (ofText (l.flatMap text ++ tail)).length ≤ n →
      Reader.definitions n (ofText (l.flatMap text ++ tail)) =
        if readable (l.flatMap descriptions) then .ok (l.map value ++ d)
        else .error [.unreadable] := by
  intro l
  induction l with
  | nil => exact fun _ hn => hread _ hn
  | cons x l ih =>
    intro n h hn
    have hmem : x ∈ x :: l := List.mem_cons_self ..
    have htake := h.takes x hmem _ (h.of_cons.startsItem htail)
    have hresult := htake.result
    obtain ⟨t, ts, htokens, -⟩ := h.starts x hmem (l.flatMap text ++ tail)
    have htext : (x :: l).flatMap text ++ tail = text x ++ (l.flatMap text ++ tail) := by
      rw [List.flatMap_cons, List.append_assoc]
    rw [htext] at hn ⊢
    rw [List.flatMap_cons, readable_append]
    cases n with
    | zero =>
      rw [htokens] at hn
      exact absurd hn (Nat.not_succ_le_zero _)
    | succ n =>
      cases hx : readable (descriptions x) with
      | false =>
        rw [hx, if_neg Bool.false_ne_true, htokens] at hresult
        rw [htokens, definitions_cons, hresult]
        rfl
      | true =>
        have hlt := htake.length_lt hx
        have hrest := ih h.of_cons (show _ ≤ n by omega)
        rw [hx, if_pos rfl, htokens] at hresult
        rw [htokens, definitions_cons, hresult, Bool.true_and]
        show (Reader.definitions n (ofText (l.flatMap text ++ tail))).map (value x :: ·) = _
        rw [hrest]
        cases readable (l.flatMap descriptions) <;> rfl

end Listed

/-- The built-in directives with their effects. -/
def directiveEffects : List (String × String) :=
  [("include", includeEffect), ("skip", skipEffect)]

theorem listed_directives :
    Listed (fun e => printDirective e.1 e.2) (fun e => [e.2]) (fun e => .directive e.1)
      directiveEffects := by
  refine ⟨fun e he rest hrest => ?_, fun e _ rest => ?_⟩
  · have hnames : ∀ e ∈ directiveEffects, isName e.1 = true := by
      rw [directiveEffects]
      simp only [List.forall_mem_cons]
      exact ⟨rfl, rfl, fun _ h => absurd h List.not_mem_nil⟩
    exact takes_directive e.2 (hnames e he) hrest
  · rw [printDirective_eq, List.append_assoc, List.append_assoc]
    exact (startsName_directiveText e.1 _).startsItem.described 0 (some e.2)

theorem readable_effects : readable (directiveEffects.flatMap fun e => [e.2]) = true := by
  decide +kernel

/-- The roots are the last definition. -/
theorem printRoots_tokens (s : Schema) :
    ofText (printRoots s) = .name "schema" :: .punctuation '\x7b' :: .name "query" ::
      .punctuation ':' :: .name "Query" :: ((if s.hasMutation then
        [.name "mutation", .punctuation ':', .name "Mutation"] else []) ++
          [.punctuation '\x7d']) := by
  unfold printRoots
  cases s.hasMutation <;> decide +kernel

theorem definitions_printRoots (s : Schema) {n : Nat} (hn : (ofText (printRoots s)).length ≤ n) :
    Reader.definitions n (ofText (printRoots s)) = .ok [.plain .schema] := by
  rw [printRoots_tokens] at hn ⊢
  obtain ⟨n, rfl⟩ := Nat.exists_eq_succ_of_ne_zero (Nat.ne_of_gt (Nat.zero_lt_of_lt hn))
  cases s.hasMutation <;> cases n <;> rfl

theorem startsItem_printRoots (s : Schema) : StartsItem (printRoots s) :=
  ⟨_, _, printRoots_tokens s, fun _ => Token.noConfusion⟩

/-- What stands behind the types. -/
theorem tail_eq (s : Schema) : builtinDirectives ++ printRoots s =
    directiveEffects.flatMap (fun e => printDirective e.1 e.2) ++ printRoots s := by
  simp [builtinDirectives, directiveEffects]

theorem startsItem_tail (s : Schema) : StartsItem (builtinDirectives ++ printRoots s) := by
  rw [tail_eq]
  exact listed_directives.startsItem (startsItem_printRoots s)

theorem definitions_tail (s : Schema) {n : Nat}
    (hn : (ofText (builtinDirectives ++ printRoots s)).length ≤ n) :
    Reader.definitions n (ofText (builtinDirectives ++ printRoots s)) =
      .ok [.directive "include", .directive "skip", .plain .schema] := by
  rw [tail_eq] at hn ⊢
  rw [listed_directives.definitions (startsItem_printRoots s)
    (fun _ => definitions_printRoots s) hn, readable_effects, if_pos rfl]
  rfl

theorem takes_entry {e : TypeEntry} (he : e.Printable) (hrest : StartsItem rest) :
    Takes Reader.definition e.text e.descriptions (.plain e.definition) rest := by
  cases e with
  | object o => exact takes_object he rest
  | input i => exact takes_inputObject he rest
  | json => exact takes_jsonScalar hrest

theorem startsItem_entry (e : TypeEntry) (rest : List Char) : StartsItem (e.text ++ rest) := by
  cases e with
  | object o =>
    rw [TypeEntry.text, printObject_eq]
    exact startsItem_definitionText rfl _ _ _ rest
  | input i =>
    rw [TypeEntry.text, printInputObject_eq]
    exact startsItem_definitionText rfl _ _ _ rest
  | json =>
    rw [TypeEntry.text, printJsonScalar_eq]
    exact startsItem_definitionText rfl _ _ _ rest

theorem printable_entries {s : Schema} (h : s.Printable) : ∀ e ∈ s.entries, e.Printable := by
  intro e he
  rw [Schema.entries, List.append_assoc, List.mem_append, List.mem_append] at he
  rcases he with he | he | he
  · obtain ⟨o, ho, rfl⟩ := List.mem_map.mp he
    exact h.objects o ho
  · obtain ⟨i, hi, rfl⟩ := List.mem_map.mp he
    exact h.inputs i hi
  · split at he
    · rw [List.mem_singleton.mp he]
      trivial
    · exact absurd he List.not_mem_nil

/-- Every printed type is followed by an empty line. -/
theorem listed_entries {s : Schema} (h : s.Printable) :
    Listed (fun e => e.text ++ ['\n']) TypeEntry.descriptions (fun e => .plain e.definition)
      s.printedEntries := by
  refine ⟨fun e he rest hrest => ?_, fun e _ rest => ?_⟩
  · have hprintable := printable_entries h e (mem_printedEntries.mp he).1
    have hnewline := all_isIgnored_singleton '\n' rfl
    exact (takes_entry hprintable (hrest.after hnewline)).before hnewline
  · rw [List.append_assoc]
    exact startsItem_entry e _

theorem readable_flatMap {γ : Type} (f : γ → List String) (l : List γ) :
    readable (l.flatMap f) = l.all fun x => readable (f x) :=
  List.all_flatMap

/-- Sorting the types does not matter for what can be read, and the scalar `JSON` can. -/
theorem readable_printedEntries (s : Schema) :
    readable (s.printedEntries.flatMap TypeEntry.descriptions) = readable s.descriptions := by
  have hjson : readable ["Arbitrary JSON value"] = true := by decide +kernel
  rw [readable_flatMap, (printedEntries_perm s).all_eq, Schema.entries, List.filter_append,
    List.filter_append, List.all_append, List.all_append, List.filter_map, List.filter_map,
    List.all_map, List.all_map, Schema.descriptions, readable_append, readable_flatMap,
    readable_flatMap]
  have hscalar : ((if s.usesJson then [TypeEntry.json] else []).filter fun e =>
      !isHidden e.name).all (fun e => readable e.descriptions) = true := by
    rw [List.all_filter]
    cases s.usesJson with
    | false => rfl
    | true => rw [if_pos rfl, List.all_cons, TypeEntry.descriptions, hjson, Bool.or_true]; rfl
  rw [hscalar, Bool.and_true]
  rfl

theorem read_print {s : Schema} (h : s.Printable) :
    Document.read (print s) =
      if readable s.descriptions then .ok s.printedDocument else .error .unreadable := by
  have hlisted := listed_entries h
  have hread := hlisted.definitions (startsItem_tail s) (fun _ => definitions_tail s) (le_refl _)
  obtain ⟨t, ts, htokens, -⟩ := hlisted.startsItem (startsItem_tail s)
  rw [← print_eq] at hread htokens
  rw [readable_printedEntries] at hread
  have hsome : ¬ (ofText (print s)).isEmpty = true := by
    rw [htokens, List.isEmpty_cons]
    exact Bool.false_ne_true
  rw [Document.read, Document.ofTokens, if_neg hsome, hread]
  cases readable s.descriptions <;> rfl

end ApiGraph.GraphQL.Sdl
