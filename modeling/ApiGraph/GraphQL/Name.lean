import ApiGraph.Text.Casing

/-!
# GraphQL names

A GraphQL name consists of underscores, ASCII letters and ASCII digits, is not empty and does not
begin with a digit.  `fieldName` and `typeName` make such a name out of any text: the text is put
into camel case or Pascal case, and what is still foreign to a name is replaced by underscores.

Main statements: `isName_fieldName` and `isName_typeName`, the result is always a name.
-/

namespace ApiGraph.GraphQL

open ApiGraph.Text

/-- May the character stand in a name? -/
def isNameChar (c : Char) : Bool :=
  c == '_' || c.isAlphanum

/-- Is the text a name? -/
def isName (s : String) : Bool :=
  match s.toList with
  | [] => false
  | c :: r => isNameChar c && !c.isDigit && r.all isNameChar

/-- The character as it stands in a name: itself, or an underscore in its place. -/
def toNameChar (c : Char) : Char :=
  if isNameChar c then c else '_'

/-- Put an underscore before a digit at the start, and for a text without characters. -/
def guardStart : List Char → List Char
  | [] => ['_']
  | c :: r => if c.isDigit then '_' :: c :: r else c :: r

/-- Replace every character foreign to names and see to the start. -/
def sanitize (cs : List Char) : List Char :=
  guardStart (cs.map toNameChar)

/-- The name of a field or an argument for any text. -/
def fieldName (s : String) : String :=
  String.ofList (sanitize (camelCase s.toList))

/-- The name of a type for any text. -/
def typeName (s : String) : String :=
  String.ofList (sanitize (pascalCase s.toList))

@[simp] theorem isNameChar_toNameChar (c : Char) : isNameChar (toNameChar c) = true := by
  unfold toNameChar
  split
  · assumption
  · rfl

theorem isName_guardStart {cs : List Char} (h : cs.all isNameChar = true) :
    isName (String.ofList (guardStart cs)) = true := by
  cases cs with
  | nil => rfl
  | cons c r =>
    have underscore : isNameChar '_' = true := rfl
    simp only [List.all_cons, Bool.and_eq_true] at h
    by_cases hd : c.isDigit = true
    · simpa [guardStart, isName, hd, h.1, underscore] using h.2
    · simpa [guardStart, isName, hd, h.1] using h.2

theorem isName_sanitize (cs : List Char) : isName (String.ofList (sanitize cs)) = true :=
  isName_guardStart (by simp [List.all_map])

theorem isName_fieldName (s : String) : isName (fieldName s) = true :=
  isName_sanitize _

theorem isName_typeName (s : String) : isName (typeName s) = true :=
  isName_sanitize _

end ApiGraph.GraphQL
