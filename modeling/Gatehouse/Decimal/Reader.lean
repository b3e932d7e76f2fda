/-!
# Reading decimals

`scaled` gives the binary64 number nearest to a decimal, a half going to the even mantissa. `read?`
reads the free-standing written form: a sign, then digits with at most one point and an optional
power of ten, or one of the words for infinity and for what is not a number, in any case of letters.
-/

namespace Gatehouse.Decimal

/-- The number nearest to `m · 10 ^ e`. Powers outside the range of the format are answered without
    being computed. -/
def scaled (m : Nat) (e : Int) : Float :=
  let size : Int := (Nat.toDigits 10 m).length
  if m = 0 then 0.0
  else if 400 < size + e then Float.ofBits 0x7FF0000000000000
  else if size + e < -400 then 0.0
  else if 0 ≤ e then Float.ofScientific m false e.toNat
  else Float.ofScientific m true (-e).toNat

/-- The natural that a list of decimal digits denotes. -/
def ofDigits (ds : List Char) : Nat := ds.foldl (fun n c => 10 * n + (c.toNat - '0'.toNat)) 0

/-- The digits a text begins with, and the rest. -/
def spanDigits (cs : List Char) : List Char × List Char :=
  (cs.takeWhile Char.isDigit, cs.dropWhile Char.isDigit)

/-- The signed power of ten behind the letter e, for a text that is nothing else. -/
def readPower? (cs : List Char) : Option Int :=
  let (negative, ds) := match cs with
    | '-' :: ds => (true, ds)
    | '+' :: ds => (false, ds)
    | ds => (false, ds)
  if ds.isEmpty || !ds.all Char.isDigit then none
  else some (if negative then -(ofDigits ds : Int) else ofDigits ds)

/-- An unsigned decimal: digits, a point with digits, a power of ten. -/
def readMagnitude? (cs : List Char) : Option Float :=
  let (whole, rest) := spanDigits cs
  let (fraction, rest) := match rest with
    | '.' :: rest => spanDigits rest
    | rest => ([], rest)
  if whole.isEmpty && fraction.isEmpty then none
  else
    let power? := match rest with
      | [] => some 0
      | c :: rest => if c = 'e' || c = 'E' then readPower? rest else none
    power?.map fun power => scaled (ofDigits (whole ++ fraction)) (power - fraction.length)

/-- An unsigned number: a decimal or a word. -/
def readUnsigned? (cs : List Char) : Option Float :=
  let word := String.ofList (cs.map Char.toLower)
  if word = "inf" || word = "infinity" then some (Float.ofBits 0x7FF0000000000000)
  else if word = "nan" then some (Float.ofBits 0x7FF8000000000000)
  else readMagnitude? cs

/-- The number that a text denotes. -/
def read? (s : String) : Option Float :=
  match s.toList with
  | '-' :: cs => (readUnsigned? cs).map (-·)
  | '+' :: cs => readUnsigned? cs
  | cs => readUnsigned? cs

end Gatehouse.Decimal
