import Gatehouse.Value
import Gatehouse.Decimal.Format

/-!
# Writing JSON

The compact form has no blanks. The pretty form puts every item and field on a line of its own, two
spaces further in than its parent, and one blank after a colon; an empty array or object stays on
one line. A text escapes the quote, the backslash and the characters below the space, and nothing
else. A float that is no number is written as `null`.
-/

namespace Gatehouse.Json

/-- The last two hexadecimal digits of a small code point. -/
def hexByte (n : Nat) : List Char := [Nat.digitChar (n / 16 % 16), Nat.digitChar (n % 16)]

/-- The written form of one character inside a text. -/
def escapeChar (c : Char) : List Char :=
  if c = '"' then ['\\', '"']
  else if c = '\\' then ['\\', '\\']
  else if c = '\n' then ['\\', 'n']
  else if c = '\r' then ['\\', 'r']
  else if c = '\t' then ['\\', 't']
  else if c = '\x08' then ['\\', 'b']
  else if c = '\x0c' then ['\\', 'f']
  else if c.toNat < 0x20 then ['\\', 'u', '0', '0'] ++ hexByte c.toNat
  else [c]

/-- A text in quotes. -/
def quoted (s : String) : List Char := '"' :: s.toList.flatMap escapeChar ++ ['"']

/-- A value that has no parts. -/
def scalar : Value → List Char
  | .bool true => "true".toList
  | .bool false => "false".toList
  | .int n => (toString n).toList
  | .float x => if x.isFinite then (Decimal.written x).toList else "null".toList
  | .text s => quoted s
  | _ => "null".toList

mutual

/-- The compact form. -/
def compactChars : Value → List Char
  | .array [] => ['[', ']']
  | .array (v :: vs) => '[' :: compactChars v ++ compactItems vs
  | .object [] => ['{', '}']
  | .object ((k, v) :: fs) => '{' :: quoted k ++ ':' :: compactChars v ++ compactFields fs
  | v => scalar v

/-- The items behind the first, and the closing bracket. -/
def compactItems : List Value → List Char
  | [] => [']']
  | v :: vs => ',' :: compactChars v ++ compactItems vs

/-- The fields behind the first, and the closing brace. -/
def compactFields : List (String × Value) → List Char
  | [] => ['}']
  | (k, v) :: fs => ',' :: quoted k ++ ':' :: compactChars v ++ compactFields fs

end

/-- A line break and the blanks of `level` steps. -/
def newline (level : Nat) : List Char := '\n' :: List.replicate (2 * level) ' '

mutual

/-- The pretty form of a value that stands `level` steps in. -/
def prettyChars (level : Nat) : Value → List Char
  | .array [] => ['[', ']']
  | .array (v :: vs) => '[' :: newline (level + 1) ++ prettyChars (level + 1) v ++ prettyItems level vs
  | .object [] => ['{', '}']
  | .object ((k, v) :: fs) =>
    '{' :: newline (level + 1) ++ quoted k ++ ':' :: ' ' :: prettyChars (level + 1) v
      ++ prettyFields level fs
  | v => scalar v

/-- The items behind the first, and the closing bracket on its own line. -/
def prettyItems (level : Nat) : List Value → List Char
  | [] => newline level ++ [']']
  | v :: vs => ',' :: newline (level + 1) ++ prettyChars (level + 1) v ++ prettyItems level vs

/-- The fields behind the first, and the closing brace on its own line. -/
def prettyFields (level : Nat) : List (String × Value) → List Char
  | [] => newline level ++ ['}']
  | (k, v) :: fs =>
    ',' :: newline (level + 1) ++ quoted k ++ ':' :: ' ' :: prettyChars (level + 1) v
      ++ prettyFields level fs

end

/-- A value on one line. -/
def compact (v : Value) : String := String.ofList (compactChars v)

/-- A value spread over lines. -/
def pretty (v : Value) : String := String.ofList (prettyChars 0 v)

end Gatehouse.Json
