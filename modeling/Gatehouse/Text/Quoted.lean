import Gatehouse.Text.GraphemeExtend

/-!
# Quoted text in messages

A text inside a message stands in double quotes. A quote, a backslash, NUL, tab, line feed and
carriage return have a short escape; a character without a printed form, or one that would attach to
its neighbour, is written by its code point in lower-case hexadecimal. Everything else, the single
quote too, stands as it is.
-/

namespace Gatehouse.Text

/-- The written form of one character inside quotes. -/
def quoteChar (c : Char) : List Char :=
  if c = '"' then ['\\', '"']
  else if c = '\\' then ['\\', '\\']
  else if c = '\n' then ['\\', 'n']
  else if c = '\r' then ['\\', 'r']
  else if c = '\t' then ['\\', 't']
  else if c = '\x00' then ['\\', '0']
  else if isGraphemeExtend c || !isPrintable c then
    ['\\', 'u', '{'] ++ Nat.toDigits 16 c.toNat ++ ['}']
  else [c]

/-- The text in double quotes. -/
def quote (s : String) : String :=
  String.ofList ('"' :: s.toList.flatMap quoteChar ++ ['"'])

/-- A list of quoted texts in brackets. -/
def quoteList (ss : List String) : String :=
  "[" ++ ", ".intercalate (ss.map quote) ++ "]"

end Gatehouse.Text
