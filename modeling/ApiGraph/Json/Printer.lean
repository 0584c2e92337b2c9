import ApiGraph.Json.Value

/-!
# Compact JSON text

A value is written without blanks.  In a string the quote, the backslash and the control characters
are escaped, those with a short escape by it and the others as `\u00` and two hexadecimal digits;
every other character stands for itself.
-/

namespace ApiGraph.Json

/-- A character as it stands between the quotes of a string. -/
def escapeChar (c : Char) : List Char :=
  if c == '"' then ['\\', '"']
  else if c == '\\' then ['\\', '\\']
  else if c == '\x08' then ['\\', 'b']
  else if c == '\t' then ['\\', 't']
  else if c == '\n' then ['\\', 'n']
  else if c == '\x0c' then ['\\', 'f']
  else if c == '\r' then ['\\', 'r']
  else if c.toNat < 0x20 then
    ['\\', 'u', '0', '0', Nat.digitChar (c.toNat / 16), Nat.digitChar (c.toNat % 16)]
  else [c]

/-- A string with its quotes. -/
def writeString (s : String) : List Char :=
  '"' :: s.toList.flatMap escapeChar ++ ['"']

/-- Texts with commas between them. -/
def commaSeparated : List (List Char) → List Char
  | [] => []
  | [t] => t
  | t :: r => t ++ ',' :: commaSeparated r

mutual

/-- The compact text of a value. -/
def write : Json → List Char
  | .null => "null".toList
  | .bool true => "true".toList
  | .bool false => "false".toList
  | .number n => n.text
  | .string s => writeString s
  | .array items => '[' :: commaSeparated (writeItems items) ++ [']']
  | .object members => '\x7b' :: commaSeparated (writeMembers members) ++ ['\x7d']

def writeItems : List Json → List (List Char)
  | [] => []
  | j :: r => write j :: writeItems r

def writeMembers : List (String × Json) → List (List Char)
  | [] => []
  | (k, j) :: r => (writeString k ++ ':' :: write j) :: writeMembers r

end

/-- The compact text of a value, as a string. -/
def text (j : Json) : String :=
  String.ofList j.write

end ApiGraph.Json
