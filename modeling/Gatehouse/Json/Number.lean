import Gatehouse.Value

/-!
# Numbers in JSON text

A number without point and power is an integer as long as it fits: up to `2^64 - 1` without a sign
and down to `-2^63` with one. Every other number, minus zero too, is a binary64 float.

The digits are gathered into a significand below `2^64`; digits that no longer fit are dropped,
those before the point counting as a power of ten. The float is the significand, rounded, times or
divided by a rounded power of ten. A number too large for the format is an error, one too small is
zero.
-/

namespace Gatehouse.Json

/-- The digits that still fit below `2^64` behind `significand`: the new significand and how many
    digits went into it. -/
def gather (significand : Nat) : List Nat → Nat × Nat
  | [] => (significand, 0)
  | d :: ds =>
    if 10 * significand + d < Nat.pow 2 64 then
      let (s, n) := gather (10 * significand + d) ds
      (s, n + 1)
    else (significand, 0)

/-- The float nearest to a power of ten within the format. -/
def powerOfTen (e : Nat) : Float := Float.ofScientific 1 false e

/-- `significand · 10 ^ power` in two roundings; nothing if it exceeds the format. -/
def floatOfParts? (significand : Nat) (power : Int) : Option Float :=
  let f := Float.ofNat significand
  if 308 < power then (if significand = 0 then some 0.0 else none)
  else if 0 ≤ power then
    let x := f * powerOfTen power.toNat
    if x.isInf then none else some x
  else if -308 ≤ power then some (f / powerOfTen (-power).toNat)
  else if -616 ≤ power then some (f / powerOfTen 308 / powerOfTen (-power - 308).toNat)
  else some 0.0

/-- The parts of a number as they stand in the text: the digits before the point, the digits behind
    it if there is one, and the signed power if there is one. -/
structure NumberParts where
  negative : Bool
  whole : List Nat
  fraction : Option (List Nat)
  power : Option (Bool × List Nat)

/-- The natural of a list of decimal digits. -/
def ofDecimalDigits (ds : List Nat) : Nat := ds.foldl (fun n d => 10 * n + d) 0

/-- The value of an integer with a sign: zero with a minus and what is below `-2^63` are floats. -/
def signedInteger (negative : Bool) (n : Nat) : Value :=
  if !negative then .int n
  else if n = 0 || Nat.pow 2 63 < n then .float (-(Float.ofNat n))
  else .int (-(n : Int))

/-- The value that a number denotes; nothing if it exceeds the format. -/
def NumberParts.value? (p : NumberParts) : Option Value :=
  let (significand, taken) := gather 0 p.whole
  let dropped := p.whole.length - taken
  if p.fraction.isNone && p.power.isNone && dropped = 0 then
    some (signedInteger p.negative significand)
  else
    let (significand, behind) := match p.fraction with
      | none => (significand, 0)
      | some ds => gather significand ds
    let shift : Int := dropped - behind
    let magnitude := match p.power with
      | none => floatOfParts? significand shift
      | some (down, ds) =>
        let e := ofDecimalDigits ds
        if Nat.pow 2 31 ≤ e then (if significand = 0 || down then some 0.0 else none)
        else floatOfParts? significand (if down then shift - e else shift + e)
    magnitude.map fun x => .float (if p.negative then -x else x)

end Gatehouse.Json
