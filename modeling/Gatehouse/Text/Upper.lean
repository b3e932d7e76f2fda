/-!
# Upper-casing of method names

Method names are upper-cased by the full Unicode rules before they are read as tokens. A token is
ASCII, so of those rules only the characters whose upper-case form is ASCII matter: the letters
a to z, the dotless i, the long s, the sharp s and the Latin ligatures. The upper-case form of every
other character keeps a character outside ASCII, which no token may hold; such a character is left
as it is.
-/

namespace Gatehouse.Text

/-- The upper-case form of a character, as far as it is ASCII. -/
def upperChar (c : Char) : List Char :=
  match c with
  | 'ı' => ['I']
  | 'ſ' => ['S']
  | 'ß' => ['S', 'S']
  | 'ﬀ' => ['F', 'F']
  | 'ﬁ' => ['F', 'I']
  | 'ﬂ' => ['F', 'L']
  | 'ﬃ' => ['F', 'F', 'I']
  | 'ﬄ' => ['F', 'F', 'L']
  | 'ﬅ' => ['S', 'T']
  | 'ﬆ' => ['S', 'T']
  | c => [c.toUpper]

/-- The upper-case form of a text, as far as it is ASCII. -/
def upper (s : String) : String := String.ofList (s.toList.flatMap upperChar)

end Gatehouse.Text
