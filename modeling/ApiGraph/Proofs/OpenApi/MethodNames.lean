import ApiGraph.Proofs.Generation.BuiltinNames
import ApiGraph.Proofs.Generator.FieldOrder

/-!
# Operations that are named for their method

An operation without an id that changes something is named for its method and its path.  The words
are joined by a converter that looks at the last small letter and at whether a word begins, so it
has to be shown that the word of the method comes through as it is, and that what comes behind it is the
same whatever the method is.  A method is written in small letters, of which none begins a word; the
blank behind them does begin one, and of the last letter no more is asked than that it is small.

Hence the names of two such operations on one path are told apart by their methods.

* `camelCase_append`: the word of the method and what comes behind it.
* `exists_rest`: the names on a path.
* `methods_tell_apart`: the names of two operations, and those of a path of a document.
* `methods_tell_apart_pets`: two operations on a path with a parameter, and a path of a document.
-/

namespace ApiGraph.Text

theorem isUppercase_of_isLower {c : Char} (h : c.isLower = true) : isUppercase c = false := by
  rw [Bool.eq_false_iff]
  intro hupper
  obtain ⟨habove, hbelow⟩ := bounds_of_isLower h
  simp only [isUppercase, Char.isUpper, Bool.or_eq_true, Bool.and_eq_true, decide_eq_true_eq,
    UInt32.le_iff_toNat_le] at hupper
  rcases hupper with ⟨-, hcapital⟩ | ⟨hforeign, -⟩
  · have hninety : c.val.toNat ≤ 90 := hcapital
    omega
  · rw [← Char.toNat_val] at hforeign
    omega

theorem isAlpha_of_isLower {c : Char} (h : c.isLower = true) : c.isAlpha = true := by
  rw [Char.isAlpha, h, Bool.or_true]

theorem isWordChar_of_isLower {c : Char} (h : c.isLower = true) : isWordChar c = true := by
  rw [isWordChar, isAlphabetic, isAlpha_of_isLower h, Bool.true_or, Bool.true_or]

theorem isNumeric_of_isLower {c : Char} (h : c.isLower = true) : isNumeric c = false := by
  rw [Bool.eq_false_iff]
  intro hnumeric
  exact Bool.false_ne_true ((isLower_of_isNumeric hnumeric).symm.trans h)

/-- A small letter goes on with a word. -/
theorem joinWords_of_isLower {c : Char} (h : c.isLower = true) (last : Char) (found : Bool)
    (r : List Char) : joinWords false last found (c :: r) = c :: joinWords false c true r := by
  have hnot := isUppercase_of_isLower h
  have hupper : ¬ c.isUpper = true := by
    intro hupper
    rw [isUppercase, hupper, Bool.true_or] at hnot
    exact nomatch hnot
  rw [joinWords, isWordChar_of_isLower h, isNumeric_of_isLower h, hnot,
    Char.toLower_eq_of_not_isUpper hupper]
  simp

/-- Of the last letter no more counts than whether it is small. -/
theorem joinWords_congr {last last' : Char} (h : isLowercase last = isLowercase last')
    (start found : Bool) (cs : List Char) :
    joinWords start last found cs = joinWords start last' found cs := by
  induction cs generalizing start found with
  | nil => rfl
  | cons c r ih => rw [joinWords, joinWords, h, ih, ih, ih]

theorem isLowercase_of_isLower {c : Char} (h : c.isLower = true) : isLowercase c = true := by
  rw [isLowercase, h, Bool.true_or]

/-- Small letters go on with a word, and leave a small letter behind. -/
theorem joinWords_append {w : List Char} (hw : ∀ c ∈ w, c.isLower = true) {last : Char}
    (hlast : last.isLower = true) (r : List Char) :
    joinWords false last true (w ++ r) = w ++ joinWords false 'a' true r := by
  induction w generalizing last with
  | nil =>
    refine joinWords_congr ?_ false true r
    rw [isLowercase_of_isLower hlast]
    rfl
  | cons c w ih =>
    obtain ⟨hc, hw⟩ := List.forall_mem_cons.mp hw
    rw [List.cons_append, joinWords_of_isLower hc, ih hw hc, List.cons_append]

/-- What is dropped at the end is dropped behind a word. -/
theorem dropTrailing_append {w : List Char} (hw : ∀ c ∈ w, isWordChar c = true) (r : List Char) :
    dropTrailing (w ++ r) = w ++ dropTrailing r := by
  have hkept : w.reverse.dropWhile (fun c => !isWordChar c) = w.reverse := by
    cases hreverse : w.reverse with
    | nil => rfl
    | cons c v =>
      have hc : c ∈ w := List.mem_reverse.mp (hreverse ▸ List.mem_cons_self)
      rw [List.dropWhile_cons_of_neg (by simp [hw c hc])]
  unfold dropTrailing
  rw [List.reverse_append, List.dropWhile_append]
  split
  · rename_i hempty
    rw [hkept, List.isEmpty_iff.mp hempty, List.reverse_reverse, List.reverse_nil, List.append_nil]
  · rw [List.reverse_append, List.reverse_reverse]

/-- A first word in small letters comes through as it is, and what comes behind it does not depend
on it. -/
theorem camelCase_append {w : List Char} (hw : ∀ c ∈ w, c.isLower = true) (hne : w ≠ [])
    (r : List Char) : camelCase (w ++ r) = w ++ joinWords false 'a' true (dropTrailing r) := by
  have hwords : ∀ c ∈ w, isWordChar c = true := fun c hc => isWordChar_of_isLower (hw c hc)
  rw [camelCase, dropTrailing_append hwords]
  obtain ⟨c, v, rfl⟩ := List.exists_cons_of_ne_nil hne
  obtain ⟨hc, hv⟩ := List.forall_mem_cons.mp hw
  rw [List.cons_append, joinWords_of_isLower hc, joinWords_append hv hc, List.cons_append]

end ApiGraph.Text

namespace ApiGraph.GraphQL

open ApiGraph.Text

theorem toNameChar_of_isLower {c : Char} (h : c.isLower = true) : toNameChar c = c := by
  have halphanum : c.isAlphanum = true := by
    rw [Char.isAlphanum, isAlpha_of_isLower h, Bool.true_or]
  rw [toNameChar, isNameChar, halphanum, Bool.or_true, if_pos rfl]

theorem isDigit_of_isLower {c : Char} (h : c.isLower = true) : c.isDigit = false := by
  have hnot := isNumeric_of_isLower h
  rw [isNumeric, Bool.or_eq_false_iff] at hnot
  exact hnot.1

/-- Small letters may stand in a name, and at its start. -/
theorem sanitize_append {w : List Char} (hw : ∀ c ∈ w, c.isLower = true) (hne : w ≠ [])
    (r : List Char) : sanitize (w ++ r) = w ++ r.map toNameChar := by
  have hkept : w.map toNameChar = w := by
    refine (List.map_congr_left fun c hc => ?_).trans (List.map_id w)
    exact toNameChar_of_isLower (hw c hc)
  obtain ⟨c, v, rfl⟩ := List.exists_cons_of_ne_nil hne
  have hc := isDigit_of_isLower (hw c List.mem_cons_self)
  rw [sanitize, List.map_append, hkept, List.cons_append, guardStart, hc]
  rfl

end ApiGraph.GraphQL

namespace ApiGraph.OpenApi

open ApiGraph.Text
open ApiGraph.GraphQL (sanitize_append toNameChar)
open ApiGraph.Generation (EndpointsOf documentOf document_of_documentOf)
open ApiGraph.Generator (deletePets)

theorem Method.isLower_key (m : Method) : ∀ c ∈ m.key.toList, c.isLower = true := by
  have hall : m.key.toList.all Char.isLower = true := by cases m <;> decide
  exact List.all_eq_true.mp hall

theorem Method.key_ne_nil (m : Method) : m.key.toList ≠ [] := by
  cases m <;> decide

theorem Method.key_injective {m m' : Method} (h : m.key = m'.key) : m = m' := by
  have hsame := congrArg Method.ofKey? h
  rw [Generation.ofKey?_key, Generation.ofKey?_key] at hsame
  exact Option.some.inj hsame

namespace Endpoint

/-- Does the endpoint change something without having an id? -/
def isNamedForMethod (e : Endpoint) : Bool :=
  !e.isQuery && e.operationId.isNone

/-- What comes behind the method in the words for a path. -/
def behindMethod (path : String) : List Char :=
  match (segments path.toList).flatMap segmentWords with
  | [] => []
  | w :: ws => ' ' :: spaced (w :: ws)

theorem spaced_pathWords {m : Method} (h : m ≠ .get) (path : String) :
    spaced (pathWords m path) = m.key.toList ++ behindMethod path := by
  have hwords : pathWords m path =
      m.key.toList :: (segments path.toList).flatMap segmentWords := by
    rw [pathWords, beq_eq_false_iff_ne.mpr h]
    rfl
  rw [hwords, behindMethod]
  cases (segments path.toList).flatMap segmentWords with
  | nil => exact (List.append_nil _).symm
  | cons w ws => rfl

/-- The names on a path begin with the method and go on in the same way. -/
theorem exists_rest (path : String) : ∃ rest, ∀ e : Endpoint, e.path = path →
    e.isNamedForMethod = true → e.fieldName = e.method.key ++ rest := by
  refine ⟨String.ofList ((joinWords false 'a' true (dropTrailing (behindMethod path))).map
    toNameChar), ?_⟩
  rintro e rfl hnamed
  obtain ⟨hquery, hid⟩ := Bool.and_eq_true_iff.mp hnamed
  have hmethod : e.method ≠ .get := by simpa [isQuery] using hquery
  rw [fieldName, Option.isNone_iff_eq_none.mp hid, spaced_pathWords hmethod]
  dsimp only
  rw [GraphQL.fieldName, String.toList_ofList,
    camelCase_append e.method.isLower_key e.method.key_ne_nil,
    sanitize_append e.method.isLower_key e.method.key_ne_nil, String.ofList_append,
    String.ofList_toList]

theorem key_append_injective (rest : String) :
    Function.Injective fun m : Method => m.key ++ rest := by
  intro m m' h
  have hchars := congrArg String.toList h
  simp only [String.toList_append] at hchars
  exact Method.key_injective (String.toList_inj.mp (List.append_cancel_right hchars))

/-- Two names on a path are the same if their methods are. -/
theorem fieldName_eq_iff {e e' : Endpoint} (hpath : e.path = e'.path)
    (h : e.isNamedForMethod = true) (h' : e'.isNamedForMethod = true) :
    e.fieldName = e'.fieldName ↔ e.method = e'.method := by
  obtain ⟨rest, hrest⟩ := exists_rest e'.path
  rw [hrest e hpath h, hrest e' rfl h']
  exact (key_append_injective rest).eq_iff

end Endpoint

/-! ## Paths of documents -/

theorem path_of_endpoint {c : Components} {x : PlacedOperation} {e : Endpoint}
    (h : x.endpoint c = .ok e) : e.path = x.path := by
  obtain ⟨_, -, h⟩ := Generation.bind_eq_ok.mp h
  obtain ⟨_, -, h⟩ := Generation.bind_eq_ok.mp h
  obtain ⟨_, -, h⟩ := Generation.bind_eq_ok.mp h
  obtain ⟨_, -, h⟩ := Generation.bind_eq_ok.mp h
  obtain rfl := Except.ok.inj h
  rfl

/-- A path item has at most one operation for a method. -/
theorem nodup_methods_pathItem (j : Json) :
    ((Reader.pathItem j).operations.map Prod.fst).Nodup := by
  rw [Reader.pathItem, List.map_filterMap]
  refine List.Nodup.filterMap (fun m m' found hm hm' => ?_) (by decide)
  simp only [Option.mem_def, Option.map_map, Option.map_eq_some_iff] at hm hm'
  obtain ⟨_, -, rfl⟩ := hm
  obtain ⟨_, -, hsame⟩ := hm'
  exact hsame.symm

theorem exists_pathItem {j : Json} {d : Document} (h : documentOf j = .ok d) {path : String}
    {item : PathItem} (hitem : (path, .item item) ∈ d.paths) : ∃ v, item = Reader.pathItem v := by
  rw [document_of_documentOf h] at hitem
  obtain ⟨⟨_, v⟩, -, heq⟩ := List.mem_map.mp hitem
  refine ⟨v, ?_⟩
  have hread := congrArg Prod.snd heq
  dsimp only at hread
  unfold Reader.refOr at hread
  split at hread
  · exact nomatch hread
  · exact (RefOr.item.inj hread).symm

/-- The operations of a path item have different names. -/
theorem nodup_fieldNames {c : Components} {path : String} {item : PathItem}
    {endpoints : List Endpoint} (hmethods : (item.operations.map Prod.fst).Nodup)
    (h : item.endpoints c path = .ok endpoints) :
    ((endpoints.filter Endpoint.isNamedForMethod).map (·.fieldName)).Nodup := by
  have hplaced : EndpointsOf c (item.placed path) endpoints := forall₂_pathItem h
  obtain ⟨rest, hrest⟩ := Endpoint.exists_rest path
  have hpath : ∀ e ∈ endpoints, e.path = path := by
    intro e he
    obtain ⟨x, hx, hendpoint⟩ := exists_of_forall₂ hplaced.flip he
    obtain ⟨_, -, rfl⟩ := List.mem_map.mp hx
    exact path_of_endpoint hendpoint
  have hnames : (endpoints.filter Endpoint.isNamedForMethod).map (·.fieldName) =
      ((endpoints.filter Endpoint.isNamedForMethod).map (·.method)).map fun m => m.key ++ rest := by
    rw [List.map_map]
    refine List.map_congr_left fun e he => ?_
    obtain ⟨hmem, hnamed⟩ := List.mem_filter.mp he
    exact hrest e (hpath e hmem) hnamed
  have hall : (endpoints.map (·.method)).Nodup := by
    rw [hplaced.map_method, PathItem.placed, List.map_map]
    exact hmethods
  rw [hnames]
  exact (hall.sublist (List.filter_sublist.map _)).map (Endpoint.key_append_injective rest)

/-- Two operations on one path that change something and have no id are told apart by their
methods, whatever the path is.  So the operations of a path item never collide. -/
theorem methods_tell_apart :
    (∀ e e' : Endpoint, e.path = e'.path → e.isQuery = false → e'.isQuery = false →
      e.operationId = none → e'.operationId = none → e.method ≠ e'.method →
        e.fieldName ≠ e'.fieldName) ∧
    ∀ (j : Json) (d : Document), documentOf j = .ok d →
      ∀ (path : String) (item : PathItem), (path, .item item) ∈ d.paths →
        ∀ endpoints, item.endpoints d.components path = .ok endpoints →
          ((endpoints.filter fun e => !e.isQuery && e.operationId.isNone).map
            (·.fieldName)).Nodup := by
  constructor
  · intro e e' hpath hquery hquery' hid hid' hne hsame
    have hnamed : e.isNamedForMethod = true := by rw [Endpoint.isNamedForMethod, hquery, hid]; rfl
    have hnamed' : e'.isNamedForMethod = true := by
      rw [Endpoint.isNamedForMethod, hquery', hid']
      rfl
    exact hne ((Endpoint.fieldName_eq_iff hpath hnamed hnamed').mp hsame)
  · intro j d hdocument path item hitem endpoints hendpoints
    obtain ⟨v, rfl⟩ := exists_pathItem hdocument hitem
    exact nodup_fieldNames (nodup_methods_pathItem v) hendpoints

/-- The operations of a path item that are read from a document. -/
def petItem : PathItem :=
  { operations := [(.get, {}), (.post, {}), (.delete, {})] }

def petEndpoints : List Endpoint :=
  [{ path := "/pets", method := .get }, { path := "/pets", method := .post },
    { path := "/pets", method := .delete }]

/-- Foreign letters and braces in a path come behind the method, and one path has the names of its
operations side by side. -/
theorem methods_tell_apart_pets :
    let put : Endpoint := { path := "/pets/\x7bpetId\x7d/Äste", method := .put }
    let patch : Endpoint := { path := "/pets/\x7bpetId\x7d/Äste", method := .patch }
    put.fieldName = "putPetsByPetId_ste" ∧ patch.fieldName = "patchPetsByPetId_ste" ∧
      put.fieldName ≠ patch.fieldName ∧
      documentOf deletePets = .ok { paths := [("/pets", .item petItem)] } ∧
      petItem.endpoints {} "/pets" = .ok petEndpoints ∧
      ((petEndpoints.filter fun e => !e.isQuery && e.operationId.isNone).map
        (·.fieldName)) = ["postPets", "deletePets"] ∧
      ((petEndpoints.filter fun e => !e.isQuery && e.operationId.isNone).map
        (·.fieldName)).Nodup := by
  intro put patch
  have hdocument : documentOf deletePets = .ok { paths := [("/pets", .item petItem)] } := rfl
  have hendpoints : petItem.endpoints {} "/pets" = .ok petEndpoints := rfl
  refine ⟨by decide +kernel, by decide +kernel, ?_, hdocument, hendpoints, by decide +kernel, ?_⟩
  · exact methods_tell_apart.1 put patch rfl rfl rfl rfl rfl (by decide)
  · exact methods_tell_apart.2 deletePets _ hdocument "/pets" petItem List.mem_cons_self _
      hendpoints

end ApiGraph.OpenApi
