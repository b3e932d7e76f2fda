import Gatehouse.Decimal.Reader
import Gatehouse.Toml.Lexical
import Gatehouse.Value

/-!
# Scalars of TOML

Integers have 64 bits and are written in base ten with an optional sign, or without one in base
sixteen, eight or two behind `0x`, `0o` or `0b`. Single underscores may stand between digits. A
decimal does not begin with a zero that another digit follows. A float has a point with digits on
both sides, a power of ten, or is one of the words `inf` and `nan`. Dates and times are checked; no
setting is one, and they are read as an object without fields.
-/

namespace Gatehouse.Toml

/-- Digits with single underscores between them, the underscores left out; behind the first
    digit. -/
def moreDigits (isDig : Char → Bool) : Parser (List Char)
  | '_' :: c :: r =>
    if isDig c then (moreDigits isDig r).map fun (ds, r) => (c :: ds, r) else none
  | ['_'] => none
  | c :: r =>
    if isDig c then (moreDigits isDig r).map fun (ds, r) => (c :: ds, r) else some ([], c :: r)
  | [] => some ([], [])

/-- At least one digit, with single underscores between digits. -/
def digits (isDig : Char → Bool) : Parser (List Char)
  | c :: r => if isDig c then (moreDigits isDig r).map fun (ds, r) => (c :: ds, r) else none
  | [] => none

/-- The digits of an integer in base ten: a zero stands alone. -/
def wholeDigits : Parser (List Char)
  | '0' :: r => some (['0'], r)
  | s => digits Char.isDigit s

/-- The integer with a sign, if it fits into 64 bits. -/
def int64? (negative : Bool) (n : Nat) : Option Int :=
  if negative then (if n ≤ Nat.pow 2 63 then some (-(n : Int)) else none)
  else if n < Nat.pow 2 63 then some n else none

/-- An integer in another base whose mark has been read. -/
def radixInteger (base : Nat) : Parser Value := fun s => do
  let isDig c := match hexValue? c with
    | some d => d < base
    | none => false
  let (ds, r) ← digits isDig s
  let n := ds.foldl (fun n c => base * n + (hexValue? c).getD 0) 0
  return (.int (← int64? false n), r)

/-- Splits a sign off. -/
def sign : List Char → Bool × List Char
  | '-' :: r => (true, r)
  | '+' :: r => (false, r)
  | s => (false, s)

/-- The digits behind a point; nothing if there is no point. -/
def fractionPart : Parser (Option (List Char))
  | '.' :: r => (digits Char.isDigit r).map fun (ds, r) => (some ds, r)
  | s => some (none, s)

/-- The power of ten behind its letter; nothing if there is no such letter. -/
def powerPart : Parser (Option Int)
  | [] => some (none, [])
  | c :: r =>
    if c = 'e' || c = 'E' then
      let (negative, r) := sign r
      (digits Char.isDigit r).map fun (ds, r) =>
        let n : Int := Decimal.ofDigits ds
        (some (if negative then -n else n), r)
    else some (none, c :: r)

/-- The float beyond all others. -/
def infinity : Float := Float.ofBits 0x7FF0000000000000

/-- The float that is no number. -/
def notANumber : Float := Float.ofBits 0x7FF8000000000000

/-- An integer or a float in base ten, or one of the words. A positive float beyond the format is
    refused. -/
def decimal : Parser Value := fun s => do
  let (negative, r) := sign s
  let signed (x : Float) := if negative then -x else x
  match r with
  | 'i' :: 'n' :: 'f' :: r => return (.float (signed infinity), r)
  | 'n' :: 'a' :: 'n' :: r => return (.float (signed notANumber), r)
  | r =>
    let (whole, r) ← wholeDigits r
    let (fraction, r) ← fractionPart r
    let (power, r) ← powerPart r
    if fraction.isNone && power.isNone then
      return (.int (← int64? negative (Decimal.ofDigits whole)), r)
    else
      let behind := fraction.getD []
      let x := signed (Decimal.scaled (Decimal.ofDigits (whole ++ behind)) (power.getD 0 - behind.length))
      if x == infinity then none else return (.float x, r)

/-! ## Dates and times -/

/-- The number of exactly so many digits, from `low` to `high`. -/
def field (count low high : Nat) : Parser Nat := fun s =>
  let ds := s.take count
  let n := Decimal.ofDigits ds
  if ds.length = count && ds.all Char.isDigit && low ≤ n && n ≤ high then some (n, s.drop count)
  else none

/-- Drops a given character. -/
def mark (c : Char) (s : List Char) : Option (List Char) :=
  match s with
  | a :: r => if a = c then some r else none
  | [] => none

/-- How many days a month has. -/
def daysIn (year month : Nat) : Nat :=
  if month = 2 then
    if year % 4 = 0 && (year % 100 != 0 || year % 400 = 0) then 29 else 28
  else if month = 4 || month = 6 || month = 9 || month = 11 then 30
  else 31

/-- A calendar day. -/
def date? (s : List Char) : Option (List Char) := do
  let (year, r) ← field 4 0 9999 s
  let (month, r) ← field 2 1 12 (← mark '-' r)
  let (_, r) ← field 2 1 (daysIn year month) (← mark '-' r)
  return r

/-- A time of day; a minute may have a sixty-first second. -/
def time? (s : List Char) : Option (List Char) := do
  let (_, r) ← field 2 0 23 s
  let (_, r) ← field 2 0 59 (← mark ':' r)
  let (_, r) ← field 2 0 60 (← mark ':' r)
  match r with
  | '.' :: c :: r => return if c.isDigit then r.dropWhile Char.isDigit else '.' :: c :: r
  | r => return r

/-- The distance of a time zone, if one is given. -/
def offset? (s : List Char) : Option (List Char) :=
  match s with
  | [] => some []
  | c :: r =>
    if c = 'Z' || c = 'z' then some r
    else if c = '+' || c = '-' then do
      let (_, r) ← field 2 0 23 r
      let (_, r) ← field 2 0 59 (← mark ':' r)
      return r
    else some s

/-- A date, which a time may follow behind the letter T or a blank. -/
def dateTime? (s : List Char) : Option (List Char) := do
  let r ← date? s
  match r with
  | c :: behind =>
    if c = 'T' || c = 't' || c = ' ' then
      match time? behind with
      | some r => offset? r
      | none => return r
    else return r
  | [] => return []

/-- Whether a text begins like a date: four digits and a hyphen. -/
def startsDate (s : List Char) : Bool :=
  (s.take 4).length = 4 && (s.take 4).all Char.isDigit && (s.drop 4).head? = some '-'

/-- Whether a text begins like a time: two digits and a colon. -/
def startsTime (s : List Char) : Bool :=
  (s.take 2).length = 2 && (s.take 2).all Char.isDigit && (s.drop 2).head? = some ':'

/-- A value that begins with a digit, a sign or the letter of a word for a number. -/
def numeric : Parser Value := fun s =>
  if startsDate s then (dateTime? s).map fun r => (.object [], r)
  else if startsTime s then (time? s).map fun r => (.object [], r)
  else
    match s with
    | '0' :: 'x' :: r => radixInteger 16 r
    | '0' :: 'o' :: r => radixInteger 8 r
    | '0' :: 'b' :: r => radixInteger 2 r
    | s => decimal s

end Gatehouse.Toml
