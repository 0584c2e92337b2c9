import ApiGraph.Proofs.Generator.SchemaText

/-!
# Descriptions in the text of a schema

A description stands in a block string, which ends at the first three quotes without a backslash
before them.  Every three quotes of the text get a backslash, from left to right, and the reader
goes from left to right as well.  So they agree on where an escape stands, whatever runs of quotes
and backslashes the text has: four quotes, three behind a backslash, or some at the very end.

* `unescapeBlock_describedText`, `unescapeBlock_blockText`: without its escapes, a block string is
  the description with its indentation.
* `read_print_undescribed`: the document of a schema is the same without all descriptions.
* `described_text_is_inert`: what this says about the descriptions of generated schemas.
-/

namespace ApiGraph.GraphQL

namespace Sdl

open Token

/-! ## Taking the escapes out -/

namespace Token

/-- A character that begins no escaped delimiter. -/
theorem unescapeBlock_cons {c : Char} {r : List Char} (h : c = '\\' → ¬ blockQuotes <+: r) :
    unescapeBlock (c :: r) = c :: unescapeBlock r := by
  rw [unescapeBlock.eq_def]
  split
  · rename_i heq
    obtain ⟨rfl, rfl⟩ := List.cons.inj heq
    exact absurd ⟨_, rfl⟩ (h rfl)
  · rename_i heq
    obtain ⟨rfl, rfl⟩ := List.cons.inj heq
    rfl
  · rename_i heq
    exact absurd heq (List.cons_ne_nil _ _)

theorem unescapeBlock_indentation (level : Nat) (cs : List Char) :
    unescapeBlock (indentation level ++ cs) = indentation level ++ unescapeBlock cs := by
  induction level with
  | zero => rfl
  | succ level ih =>
    have hcons : indentation (level + 1) = '\t' :: indentation level := List.replicate_succ
    rw [hcons, List.cons_append, unescapeBlock_cons (absurd · (by decide)), ih, List.cons_append]

theorem unescapeBlock_newline (level : Nat) (cs : List Char) :
    unescapeBlock ('\n' :: indentation level ++ cs) =
      '\n' :: indentation level ++ unescapeBlock cs := by
  rw [List.cons_append, unescapeBlock_cons (absurd · (by decide)), unescapeBlock_indentation,
    List.cons_append]

/-- The induction follows the replacement of quotes; between two escapes the reader finds none that
the replacement has not put there. -/
theorem unescapeBlock_describedText (level : Nat) (cs : List Char) {tail : List Char}
    (htail : tail.head? ≠ some '"') :
    unescapeBlock (describedText level cs ++ tail) =
      indentLines level cs ++ unescapeBlock tail := by
  induction cs using escapeQuotes.induct with
  | case1 r ih =>
    have hescaped : unescapeBlock ('\\' :: '"' :: '"' :: '"' :: (describedText level r ++ tail)) =
        '"' :: '"' :: '"' :: unescapeBlock (describedText level r ++ tail) := rfl
    rw [describedText_quotes, List.cons_append, List.cons_append, List.cons_append,
      List.cons_append, hescaped, ih]
    rfl
  | case2 c r hc ih =>
    have hquotes : c = '"' → ¬ ['"', '"'] <+: r := by
      rintro rfl ⟨r', rfl⟩
      exact hc r' rfl rfl
    rw [describedText_cons level hquotes, indentLines_cons, List.append_assoc, List.append_assoc]
    by_cases hnewline : (c == '\n') = true
    · rw [if_pos hnewline, unescapeBlock_newline, ih]
    · rw [if_neg hnewline, List.singleton_append, List.singleton_append,
        unescapeBlock_cons fun _ => not_blockQuotes_prefix_describedText level htail, ih]
  | case3 => rfl

/-- What a printed block string stands for: the description between two line breaks, each line with
its indentation. -/
theorem unescapeBlock_blockText (level : Nat) (text : String) :
    unescapeBlock (blockText level text) =
      '\n' :: indentation level ++ (indentLines level text.toList ++
        '\n' :: indentation level) := by
  have htail : ('\n' :: indentation level).head? ≠ some '"' := by
    rw [List.head?_cons]
    decide
  have hend := unescapeBlock_newline level []
  rw [List.append_nil] at hend
  rw [blockText, unescapeBlock_newline, unescapeBlock_describedText level _ htail, hend]
  simp [unescapeBlock]

end Token

end Sdl

/-! ## Schemas without descriptions -/

def InputValue.undescribed (v : InputValue) : InputValue :=
  { v with description := none }

def Field.undescribed (f : Field) : Field :=
  { f with description := none, arguments := f.arguments.map (·.undescribed) }

def ObjectType.undescribed (o : ObjectType) : ObjectType :=
  { o with description := none, fields := o.fields.map (·.undescribed) }

def InputObject.undescribed (i : InputObject) : InputObject :=
  { i with description := none, fields := i.fields.map (·.undescribed) }

/-- The schema without the descriptions of its types, fields and arguments. -/
def Schema.undescribed (s : Schema) : Schema :=
  { s with
    objects := s.objects.map (·.undescribed)
    inputs := s.inputs.map (·.undescribed) }

variable {s : Schema}

theorem InputValue.Printable.undescribed {v : InputValue} (h : v.Printable) :
    v.undescribed.Printable :=
  ⟨h.name, h.type⟩

theorem Field.Printable.undescribed {f : Field} (h : f.Printable) : f.undescribed.Printable :=
  ⟨h.name, h.type, List.forall_mem_map.mpr fun a ha => (h.arguments a ha).undescribed⟩

theorem ObjectType.Printable.undescribed {o : ObjectType} (h : o.Printable) :
    o.undescribed.Printable :=
  ⟨h.name, List.forall_mem_map.mpr fun f hf => (h.fields f hf).undescribed,
    fun hnil => h.fields_ne_nil (List.map_eq_nil_iff.mp hnil)⟩

theorem InputObject.Printable.undescribed {i : InputObject} (h : i.Printable) :
    i.undescribed.Printable :=
  ⟨h.name, List.forall_mem_map.mpr fun f hf => (h.fields f hf).undescribed,
    fun hnil => h.fields_ne_nil (List.map_eq_nil_iff.mp hnil)⟩

theorem Schema.Printable.undescribed (h : s.Printable) : s.undescribed.Printable :=
  ⟨List.forall_mem_map.mpr fun o ho => (h.objects o ho).undescribed,
    List.forall_mem_map.mpr fun i hi => (h.inputs i hi).undescribed⟩

theorem Field.descriptions_undescribed (f : Field) : f.undescribed.descriptions = [] := by
  simp [Field.descriptions, Field.undescribed, InputValue.descriptions, InputValue.undescribed]

theorem Schema.descriptions_undescribed (s : Schema) : s.undescribed.descriptions = [] := by
  have hobject (o : ObjectType) : o.undescribed.descriptions = [] := by
    simp [ObjectType.descriptions, ObjectType.undescribed, Field.descriptions_undescribed]
  have hinput (i : InputObject) : i.undescribed.descriptions = [] := by
    simp [InputObject.descriptions, InputObject.undescribed, InputValue.descriptions,
      InputValue.undescribed]
  simp [Schema.descriptions, Schema.undescribed, hobject, hinput]

namespace Sdl

/-- The type without descriptions. -/
def TypeEntry.undescribed : TypeEntry → TypeEntry
  | object o => object o.undescribed
  | input i => input i.undescribed
  | json => json

theorem TypeEntry.name_undescribed (e : TypeEntry) : e.undescribed.name = e.name := by
  cases e <;> rfl

/-- A definition holds no descriptions. -/
theorem TypeEntry.definition_undescribed (e : TypeEntry) :
    e.undescribed.definition = e.definition := by
  have hvalue : InputDefinition.ofValue ∘ InputValue.undescribed = InputDefinition.ofValue := rfl
  have hfield : FieldDefinition.ofField ∘ Field.undescribed = FieldDefinition.ofField := by
    funext f
    simp [FieldDefinition.ofField, Field.undescribed, hvalue]
  cases e with
  | object o => simp [undescribed, definition, ObjectType.undescribed, hfield]
  | input i => simp [undescribed, definition, InputObject.undescribed, hvalue]
  | json => rfl

theorem entries_undescribed (s : Schema) :
    s.undescribed.entries = s.entries.map (·.undescribed) := by
  unfold Schema.entries Schema.undescribed
  cases s.usesJson <;> simp [TypeEntry.undescribed, Function.comp_def]

theorem printedEntries_undescribed (s : Schema) :
    s.undescribed.printedEntries = s.printedEntries.map (·.undescribed) := by
  have hfilter : (s.undescribed.entries.filter fun e => !isHidden e.name).map
      (fun e => (e.name, e)) = ((s.entries.filter fun e => !isHidden e.name).map
        fun e => (e.name, e)).map fun e => (e.1, e.2.undescribed) := by
    rw [entries_undescribed, List.filter_map, List.map_map, List.map_map]
    simp only [Function.comp_def, TypeEntry.name_undescribed]
  rw [Schema.printedEntries, hfilter, sortByName_map, List.map_map, Schema.printedEntries,
    List.map_map]
  rfl

theorem printedDocument_undescribed (s : Schema) :
    s.undescribed.printedDocument = s.printedDocument := by
  rw [Schema.printedDocument, printedEntries_undescribed, List.map_map, Schema.printedDocument]
  simp only [Function.comp_def, TypeEntry.definition_undescribed]

/-- The text of a schema says the same with and without its descriptions. -/
theorem read_print_undescribed (h : s.Printable) (hreadable : readable s.descriptions = true) :
    Document.read (print s) = Document.read (print s.undescribed) := by
  rw [read_print h, read_print h.undescribed, s.descriptions_undescribed, hreadable,
    readable_nil, printedDocument_undescribed]

end Sdl

end ApiGraph.GraphQL

namespace ApiGraph.Generator

open ApiGraph.Generation
open ApiGraph.GraphQL.Sdl
open Token (isBlockChar scanBlock unescapeBlock)

/-- A description of characters that may stand in a block string is printed between delimiters of
which the reader finds the second one, wherever it is printed and whatever follows.  What it finds
between them is one token, which stands for the description on lines of its own.  A generated schema
with such descriptions is read as if it had none. -/
theorem described_text_is_inert :
    (∀ text : String, text.toList.all isBlockChar = true → ∀ (level : Nat) (rest : List Char),
      ∃ raw,
        describe level (some text) ++ rest =
          indentation level ++ (blockQuotes ++ (raw ++ (blockQuotes ++ '\n' :: rest))) ∧
        scanBlock (raw ++ (blockQuotes ++ '\n' :: rest)) = .ok (raw, '\n' :: rest) ∧
        unescapeBlock raw =
          '\n' :: indentation level ++ (indentLines level text.toList ++
            '\n' :: indentation level) ∧
        Token.ofText (describe level (some text) ++ rest) = .block raw :: Token.ofText rest) ∧
    ∀ (j : Json) (schema : GraphQL.Schema), schemaOf j = .ok schema →
      (∀ text ∈ schema.descriptions, text.toList.all isBlockChar = true) →
      Document.read (print schema) = .ok schema.printedDocument ∧
        Document.read (print schema.undescribed) = .ok schema.printedDocument := by
  refine ⟨fun text h level rest => ⟨Token.blockText level text, ?_, ?_, ?_, ?_⟩,
    fun j schema hj hall => ?_⟩
  · simp [describe, Token.blockText, blockQuotes, describedText]
  · rw [Token.scanBlock_blockText, if_pos h]
  · exact Token.unescapeBlock_blockText level text
  · rw [Token.ofText_describe, if_pos h]
  · have hprintable := (makes_of_schemaOf hj).printable
    have hreadable : readable schema.descriptions = true := List.all_eq_true.mpr hall
    have hread : Document.read (print schema) = .ok schema.printedDocument := by
      rw [read_print hprintable, if_pos hreadable]
    exact ⟨hread, read_print_undescribed hprintable hreadable ▸ hread⟩

/-- Four quotes, a backslash, five quotes and a backslash at the end. -/
def runsOfQuotes : String := "\"\"\"\"\\\"\"\"\"\"\\"

theorem runsOfQuotes_are_inert :
    (∃ raw, scanBlock (raw ++ (blockQuotes ++ ['\n', '\x7d'])) = .ok (raw, ['\n', '\x7d']) ∧
      unescapeBlock raw = ['\n', '\t'] ++ (runsOfQuotes.toList ++ ['\n', '\t'])) ∧
    schemaOf (summarised runsOfQuotes) = .ok (summarisedSchema runsOfQuotes) ∧
      Document.read (print (summarisedSchema runsOfQuotes)) =
        .ok (summarisedSchema runsOfQuotes).printedDocument := by
  have hall : runsOfQuotes.toList.all isBlockChar = true := by decide +kernel
  have hschema : schemaOf (summarised runsOfQuotes) = .ok (summarisedSchema runsOfQuotes) := by
    decide +kernel
  have hdescriptions : ∀ text ∈ (summarisedSchema runsOfQuotes).descriptions,
      text.toList.all isBlockChar = true := by
    decide +kernel
  obtain ⟨raw, -, hscan, hunescape, -⟩ := described_text_is_inert.1 _ hall 1 ['\x7d']
  have hlines : indentLines 1 runsOfQuotes.toList = runsOfQuotes.toList := by decide +kernel
  rw [hlines] at hunescape
  exact ⟨⟨raw, hscan, hunescape⟩, hschema,
    (described_text_is_inert.2 _ _ hschema hdescriptions).1⟩

end ApiGraph.Generator
