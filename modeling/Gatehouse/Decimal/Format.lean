import Gatehouse.Decimal.Shortest

/-!
# Written forms of binary64 numbers

A number is written with the shortest digits that read back. The positional form puts the point
among them or zeros around them, always with a digit on each side of the point. The scientific form
has one digit before the point and a signed power of ten behind. Numbers are positional from
`0.00001` up to, but not with, `10^16`, and scientific outside.
-/

namespace Gatehouse.Decimal

/-- The digits of a decimal with the point set among them, zeros filled in where needed. -/
def Digits.positional (d : Digits) : String :=
  let ds := Nat.toDigits 10 d.digits
  if 0 ≤ d.exponent then
    String.ofList (ds ++ List.replicate d.exponent.toNat '0') ++ ".0"
  else
    let places := (-d.exponent).toNat
    let padded := List.replicate (places + 1 - ds.length) '0' ++ ds
    let whole := padded.length - places
    String.ofList (padded.take whole) ++ "." ++ String.ofList (padded.drop whole)

/-- One digit, the others behind a point, and the power of ten with its sign. -/
def Digits.scientific (d : Digits) : String :=
  let ds := Nat.toDigits 10 d.digits
  let power := d.exponent + ds.length - 1
  let sign := if power < 0 then "-" else "+"
  let fraction := match ds.drop 1 with
    | [] => ""
    | rest => "." ++ String.ofList rest
  String.ofList (ds.take 1) ++ fraction ++ "e" ++ sign ++ toString power.natAbs

/-- The form of a decimal, which depends on where its point is. -/
def Digits.written (d : Digits) : String :=
  let point := d.exponent + digitCount d.digits
  if -5 < point && point ≤ 16 then d.positional else d.scientific

/-- The written form of a number. -/
def written (x : Float) : String :=
  match Binary.ofFloat? x with
  | none => if x.isNaN then "NaN" else if x < 0 then "-inf" else "inf"
  | some b =>
    let sign := if b.negative then "-" else ""
    sign ++ (match shortest? b with
      | none => "0.0"
      | some d => d.written)

end Gatehouse.Decimal
