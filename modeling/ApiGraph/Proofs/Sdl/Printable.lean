import ApiGraph.GraphQL.Name
import ApiGraph.GraphQL.Sdl.Document
import ApiGraph.GraphQL.Sdl.Printer
import ApiGraph.GraphQL.Sdl.Token

/-!
# Schemas that can be read back

The text of a schema is a document if every name in it is a name, no type has two marks that exclude
null behind one another, and no type is without fields: `Schema.Printable`.  What the document is
then does not depend on the descriptions: it has one definition for every type that is printed, in
the order of the names, and after them the built-in directives and the roots
(`Schema.printedDocument`).

Descriptions only matter for one thing: a character that cannot stand in a block string stops all
reading.  `Schema.descriptions` are those that are printed, and `readable` says that all of their
characters can be read.
-/

namespace ApiGraph.GraphQL

/-- Does the type exclude null? -/
def TypeRef.excludesNull : TypeRef → Bool
  | .nonNull _ => true
  | _ => false

/-- All names are names, and null is excluded at most once. -/
def TypeRef.Printable : TypeRef → Prop
  | .named name => isName name = true
  | .list item => item.Printable
  | .nonNull inner => inner.Printable ∧ inner.excludesNull = false

structure InputValue.Printable (v : InputValue) : Prop where
  name : isName v.name = true
  type : v.type.Printable

structure Field.Printable (f : Field) : Prop where
  name : isName f.name = true
  type : f.type.Printable
  arguments : ∀ a ∈ f.arguments, a.Printable

structure ObjectType.Printable (o : ObjectType) : Prop where
  name : isName o.name = true
  fields : ∀ f ∈ o.fields, f.Printable
  fields_ne_nil : o.fields ≠ []

structure InputObject.Printable (i : InputObject) : Prop where
  name : isName i.name = true
  fields : ∀ f ∈ i.fields, f.Printable
  fields_ne_nil : i.fields ≠ []

structure Schema.Printable (s : Schema) : Prop where
  objects : ∀ o ∈ s.objects, o.Printable
  inputs : ∀ i ∈ s.inputs, i.Printable

/-! ## Descriptions -/

def InputValue.descriptions (v : InputValue) : List String :=
  v.description.toList

def Field.descriptions (f : Field) : List String :=
  f.description.toList ++ f.arguments.flatMap (·.descriptions)

def ObjectType.descriptions (o : ObjectType) : List String :=
  o.description.toList ++ o.fields.flatMap (·.descriptions)

def InputObject.descriptions (i : InputObject) : List String :=
  i.description.toList ++ i.fields.flatMap (·.descriptions)

/-- The descriptions in the text of a schema, type by type. -/
def Schema.descriptions (s : Schema) : List String :=
  ((s.objects.filter fun o => !Sdl.isHidden o.name).flatMap (·.descriptions)) ++
    (s.inputs.filter fun i => !Sdl.isHidden i.name).flatMap (·.descriptions)

namespace Sdl

/-- Can all characters of the texts be read in a block string? -/
def readable (texts : List String) : Bool :=
  texts.all fun text => text.toList.all Token.isBlockChar

@[simp] theorem readable_nil : readable [] = true := rfl

theorem readable_cons (text : String) (texts : List String) :
    readable (text :: texts) = (text.toList.all Token.isBlockChar && readable texts) := rfl

@[simp] theorem readable_append (xs ys : List String) :
    readable (xs ++ ys) = (readable xs && readable ys) :=
  List.all_append

/-! ## What is read -/

/-- An argument, or a field of an input object, as it is read back. -/
def InputDefinition.ofValue (v : InputValue) : InputDefinition :=
  { name := v.name, type := v.type }

/-- A field as it is read back. -/
def FieldDefinition.ofField (f : Field) : FieldDefinition :=
  { name := f.name, arguments := f.arguments.map .ofValue, type := f.type }

/-- A type that is printed. -/
inductive TypeEntry where
  | object (o : ObjectType)
  | input (i : InputObject)
  | json

namespace TypeEntry

def name : TypeEntry → String
  | object o => o.name
  | input i => i.name
  | json => jsonName

def text : TypeEntry → List Char
  | object o => printObject o
  | input i => printInputObject i
  | json => printJsonScalar

def descriptions : TypeEntry → List String
  | object o => o.descriptions
  | input i => i.descriptions
  | json => ["Arbitrary JSON value"]

/-- The type as it is read back. -/
def definition : TypeEntry → TypeDefinition
  | object o => .object o.name (o.fields.map .ofField)
  | input i => .input i.name (i.fields.map .ofValue)
  | json => .scalar jsonName

def Printable : TypeEntry → Prop
  | object o => o.Printable
  | input i => i.Printable
  | json => True

end TypeEntry

end Sdl

/-- The types of a schema, in order of registration. -/
def Schema.entries (s : Schema) : List Sdl.TypeEntry :=
  s.objects.map .object ++ s.inputs.map .input ++ if s.usesJson then [.json] else []

/-- The types that are printed, in the order in which they are. -/
def Schema.printedEntries (s : Schema) : List Sdl.TypeEntry :=
  (Sdl.sortByName ((s.entries.filter fun e => !Sdl.isHidden e.name).map fun e =>
    (e.name, e))).map (·.2)

/-- The document that the text of a schema is. -/
def Schema.printedDocument (s : Schema) : Sdl.Document :=
  s.printedEntries.map (fun e => .plain e.definition) ++
    [.directive "include", .directive "skip", .plain .schema]

namespace Sdl

/-! ## Sorting -/

variable {α β : Type}

theorem insertByName_map (f : α → β) (e : String × α) (l : List (String × α)) :
    insertByName (e.1, f e.2) (l.map fun p => (p.1, f p.2)) =
      (insertByName e l).map fun p => (p.1, f p.2) := by
  induction l with
  | nil => rfl
  | cons p l ih =>
    rw [List.map_cons, insertByName, insertByName]
    split
    · rw [ih, List.map_cons]
    · rfl

/-- Names alone settle the order. -/
theorem sortByName_map (f : α → β) (l : List (String × α)) :
    sortByName (l.map fun p => (p.1, f p.2)) = (sortByName l).map fun p => (p.1, f p.2) := by
  induction l with
  | nil => rfl
  | cons p l ih => rw [List.map_cons, sortByName, ih, insertByName_map, sortByName]

theorem insertByName_perm (e : String × α) (l : List (String × α)) :
    (insertByName e l).Perm (e :: l) := by
  induction l with
  | nil => exact .refl _
  | cons p l ih =>
    rw [insertByName]
    split
    · exact (ih.cons p).trans (.swap e p l)
    · exact .refl _

theorem sortByName_perm (l : List (String × α)) : (sortByName l).Perm l := by
  induction l with
  | nil => exact .refl _
  | cons p l ih => exact (insertByName_perm p _).trans (ih.cons p)

theorem printedEntries_perm (s : Schema) :
    s.printedEntries.Perm (s.entries.filter fun e => !isHidden e.name) := by
  have hperm := (sortByName_perm ((s.entries.filter fun e => !isHidden e.name).map fun e =>
    (e.name, e))).map (·.2)
  rw [List.map_map] at hperm
  exact hperm.trans (.of_eq (List.map_id _))

theorem mem_printedEntries {s : Schema} {e : TypeEntry} :
    e ∈ s.printedEntries ↔ e ∈ s.entries ∧ isHidden e.name = false := by
  rw [(printedEntries_perm s).mem_iff, List.mem_filter, Bool.not_eq_true']

/-- The printer and `Schema.entries` list the same types. -/
theorem printedTypes_eq (s : Schema) :
    printedTypes s = s.entries.map fun e => (e.name, e.text) := by
  unfold printedTypes Schema.entries
  cases s.usesJson <;> simp [TypeEntry.name, TypeEntry.text, Function.comp_def]

/-- The text of a schema, type by type. -/
theorem print_eq (s : Schema) :
    print s = s.printedEntries.flatMap (fun e => e.text ++ ['\n']) ++
      (builtinDirectives ++ printRoots s) := by
  have hsort := sortByName_map TypeEntry.text
    ((s.entries.filter fun e => !isHidden e.name).map fun e => (e.name, e))
  rw [List.map_map] at hsort
  have hfilter : (printedTypes s).filter (fun e => !isHidden e.1) =
      (s.entries.filter fun e => !isHidden e.name).map fun e => (e.name, e.text) := by
    rw [printedTypes_eq, List.filter_map]
    rfl
  rw [print, hfilter, List.append_assoc, Schema.printedEntries, List.flatMap_map]
  refine congrArg (· ++ (builtinDirectives ++ printRoots s)) ?_
  exact (congrArg (List.flatMap fun e => e.2 ++ ['\n']) hsort).trans (List.flatMap_map ..)

end Sdl

end ApiGraph.GraphQL
