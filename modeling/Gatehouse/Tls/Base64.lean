/-!
# Base64

Three bytes are written as four characters of an alphabet of sixty-four. A last group of one or two
bytes is written as two or three characters, which may be filled up to four. Blanks may stand
anywhere and mean nothing; so do the bits of a last group that belong to no byte.

* `symbol?`  what a character means
* `decode?`  the bytes that a text stands for
-/

namespace Gatehouse.Tls.Base64

/-- What a character means. -/
inductive Symbol
  | blank
  /-- A character that fills up the last group. -/
  | filler
  | sextet (n : Nat)
deriving DecidableEq

/-- What a character means; nothing for one that is neither in the alphabet nor filler nor blank. -/
def symbol? (b : UInt8) : Option Symbol :=
  let c := Char.ofNat b.toNat
  if c.isUpper then some (.sextet (c.toNat - 'A'.toNat))
  else if c.isLower then some (.sextet (c.toNat - 'a'.toNat + 26))
  else if c.isDigit then some (.sextet (c.toNat - '0'.toNat + 52))
  else if c = '+' then some (.sextet 62)
  else if c = '/' then some (.sextet 63)
  else if c = '=' then some .filler
  else if c = ' ' || (9 ≤ b && b ≤ 13) then some .blank
  else none

/-- The first byte of a group. -/
def first (a b : Nat) : UInt8 := (a * 4 + b / 16).toUInt8

/-- The second byte of a group. -/
def second (b c : Nat) : UInt8 := (b % 16 * 16 + c / 4).toUInt8

/-- The third byte of a group. -/
def third (c d : Nat) : UInt8 := (c % 4 * 64 + d).toUInt8

/-- The bytes that symbols stand for. Only a last group is filled up. -/
def bytes? : List Symbol → Option (List UInt8)
  | [] => some []
  | [.sextet a, .sextet b] => some [first a b]
  | [.sextet a, .sextet b, .filler, .filler] => some [first a b]
  | [.sextet a, .sextet b, .sextet c] => some [first a b, second b c]
  | [.sextet a, .sextet b, .sextet c, .filler] => some [first a b, second b c]
  | .sextet a :: .sextet b :: .sextet c :: .sextet d :: r =>
    (bytes? r).map ([first a b, second b c, third c d] ++ ·)
  | _ => none

/-- The bytes that a text stands for. -/
def decode? (text : List UInt8) : Option (List UInt8) := do
  let symbols ← text.mapM symbol?
  bytes? (symbols.filter (· ≠ .blank))

end Gatehouse.Tls.Base64
