import ApiGraph.Toml.Number

/-!
# Reading TOML text

A text consists of lines, each of which is empty, gives a key its value, or begins a table or a
further table of an array.  Arrays may go over several lines, tables in braces may not, and only
an array may have a comma behind its last item.

`Toml.read?` reads a text into the members of its root table.
-/

namespace ApiGraph.Toml

section Collections

/- How the values inside are read. -/
variable (value : List Char → Scanned)

/-- Read the rest of an array, with a bound on the number of its items. -/
def items? : Nat → List Char → Option (List Value × List Char)
  | 0, _ => none
  | n + 1, cs =>
    match skipFiller false cs with
    | ']' :: r => some ([], r)
    | cs => do
      let (v, r) ← value cs
      match skipFiller false r with
      | ',' :: r =>
        let (vs, r) ← items? n r
        return (v :: vs, r)
      | ']' :: r => return ([v], r)
      | _ => none

/-- Read a key with its value: the keys before its last dot, the last one, and the value. -/
def keyValue? (cs : List Char) : Option (List String × String × Value × List Char) := do
  let (path, key, r) ← key? cs
  let (v, r) ← value (skipBlanks (← expect? '=' r))
  return (path, key, v, r)

/-- Read members of a table in braces up to its end, with a bound on their number; there is at
least one. -/
def members? : Nat → Members → List Char → Option (Members × List Char)
  | 0, _, _ => none
  | n + 1, ms, cs => do
    let (path, key, v, r) ← keyValue? value cs
    let ms ← ms.insert? .braces path key v
    match skipBlanks r with
    | ',' :: r => members? n ms r
    | '\x7d' :: r => return (ms, r)
    | _ => none

/-- Read the rest of a table in braces. -/
def braces? (cs : List Char) : Option (Members × List Char) :=
  match skipBlanks cs with
  | '\x7d' :: r => some ([], r)
  | cs => members? value (cs.length + 1) [] cs

end Collections

/-- Read a value in which arrays and tables are nested at most `depth` deep. -/
def value? : Nat → List Char → Scanned
  | depth, cs =>
    match cs with
    | 't' :: 'r' :: 'u' :: 'e' :: r => some (.boolean true, r)
    | 'f' :: 'a' :: 'l' :: 's' :: 'e' :: r => some (.boolean false, r)
    | '[' :: r =>
      match depth with
      | 0 => none
      | d + 1 => (items? (value? d) (r.length + 1) r).map fun (vs, r) => (.array vs, r)
    | '\x7b' :: r =>
      match depth with
      | 0 => none
      | d + 1 => (braces? (value? d) r).map fun (ms, r) => (.table .braces ms, r)
    | cs =>
      match string? cs with
      | some (text, r) => some (.string (String.ofList text), r)
      | none => number? cs

/-! ## Documents -/

/-- What a line does to a document. -/
inductive Line where
  | blank
  | member (path : List String) (key : String) (value : Value)
  | table (path : List String) (key : String)
  | element (path : List String) (key : String)

/-- Read a line up to its end. -/
def line? (cs : List Char) : Option (Line × List Char) :=
  match skipBlanks cs with
  | '[' :: '[' :: r => do
    let (path, key, r) ← key? r
    return (.element path key, ← endLine? (← expect? ']' (← expect? ']' r)))
  | '[' :: r => do
    let (path, key, r) ← key? r
    return (.table path key, ← endLine? (← expect? ']' r))
  | cs =>
    match endLine? cs with
    | some r => some (.blank, r)
    | none => do
      let (path, key, v, r) ← keyValue? (value? maxDepth) cs
      return (.member path key v, ← endLine? r)

/-- A document as far as it is read. -/
structure Document where
  root : Members := []
  /-- The keys of the table that gets the next members. -/
  current : List String := []

/-- What the document becomes by a line. -/
def Document.apply? (d : Document) : Line → Option Document
  | .blank => some d
  | .member path key v =>
    (d.root.update .implied (fun origin t => t.insert? origin path key v) d.current .header).map
      fun root => { d with root }
  | .table path key => (d.root.open? path key).map fun root => ⟨root, path ++ [key]⟩
  | .element path key => (d.root.append? path key).map fun root => ⟨root, path ++ [key]⟩

/-- Read lines up to the end of the text, with a bound on their number. -/
def lines? : Nat → Document → List Char → Option Document
  | 0, _, _ => none
  | _ + 1, d, [] => some d
  | n + 1, d, cs => do
    let (line, r) ← line? cs
    lines? n (← d.apply? line) r

/-- Go past a byte order mark, if there is one. -/
def skipMark : List Char → List Char
  | '\ufeff' :: r => r
  | cs => cs

/-- Read a TOML text. -/
def read? (s : String) : Option Members :=
  let cs := skipMark s.toList
  (lines? (cs.length + 1) {} cs).map (·.root)

end ApiGraph.Toml
