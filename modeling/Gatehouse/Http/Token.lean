/-!
# Tokens

A token is a non-empty text of letters, digits and fifteen signs, all of them ASCII. Method names
and header names are tokens.
-/

namespace Gatehouse.Http

/-- The signs that may stand in a token. -/
def tokenSigns : List Char :=
  ['!', '#', '$', '%', '&', '\x27', '*', '+', '-', '.', '^', '_', '\x60', '|', '~']

/-- Whether a character may stand in a token. -/
def isTokenChar (c : Char) : Bool := c.isAlphanum || tokenSigns.contains c

/-- Whether a text is a token. -/
def isToken (s : String) : Bool := !s.isEmpty && s.toList.all isTokenChar

end Gatehouse.Http
