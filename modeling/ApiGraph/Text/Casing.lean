import ApiGraph.Text.Alphabetic
import ApiGraph.Text.LetterCase
import ApiGraph.Text.Numeric

/-!
# Camel case and Pascal case

A text is cut into words and the words are joined, each beginning with a capital.  A word ends at
a character that is neither alphabetic nor numeric, after a numeric character, and before a capital
that follows a small letter.  In camel case the first word begins with a small letter, in Pascal
case with a capital.

Only ASCII letters change their case; all other alphabetic and numeric characters stay as they
are, so the result may hold any of them.
-/

namespace ApiGraph.Text

/-- Does the character belong to words? -/
def isWordChar (c : Char) : Bool :=
  isAlphabetic c || isNumeric c

/-- Join the words of `cs`.  The next letter begins a word if `start` is set; `last` is the last
small-cased letter that was written inside a word, and `found` says whether anything was written,
since characters between words count only after the first word. -/
def joinWords (start : Bool) (last : Char) (found : Bool) : List Char → List Char
  | [] => []
  | c :: r =>
    if !isWordChar c then joinWords (start || found) last found r
    else if isNumeric c then c :: joinWords true last true r
    else if start || (isLowercase last && isUppercase c) then
      c.toUpper :: joinWords false last true r
    else c.toLower :: joinWords false c true r

/-- Drop what follows the last character of the last word. -/
def dropTrailing (cs : List Char) : List Char :=
  (cs.reverse.dropWhile fun c => !isWordChar c).reverse

/-- The words of the text, joined with a small first letter. -/
def camelCase (cs : List Char) : List Char :=
  joinWords false ' ' false (dropTrailing cs)

/-- The words of the text, joined with a capital first letter. -/
def pascalCase (cs : List Char) : List Char :=
  joinWords true ' ' false (dropTrailing cs)

end ApiGraph.Text
