import Gatehouse.Value
import Gatehouse.Decimal.Format
import Gatehouse.Text.Quoted

/-!
# Decoding values into records

A record is decoded from an object, whose fields may come in any order and may hold others that the
record does not know, or from an array with the fields in the order of their declaration. What does
not fit is a `Mismatch`, and `Mismatch.message` is its wording.

A `Shape` says how a record is put together: the value to start from and, for each field, how a
value goes into it.
-/

namespace Gatehouse

/-- Why a value does not fit. -/
inductive Mismatch
  /-- The value is of another kind than the one wanted. -/
  | kind (found : Value) (wanted : String)
  /-- The integer is not in the range of the type wanted. -/
  | range (n : Int) (wanted : String)
  /-- A field that has no default is not there. -/
  | missing (field : String)
  /-- An array does not have the number of items wanted. -/
  | length (n : Nat) (wanted : String)

/-- How a message names a value: scalars by what they hold, the others by their kind. -/
def Value.described : Value → String
  | null => "null"
  | bool b => "boolean `" ++ (if b then "true" else "false") ++ "`"
  | int n => "integer `" ++ toString n ++ "`"
  | float x => "floating point `" ++ Decimal.written x ++ "`"
  | text s => "string " ++ Text.quote s
  | array _ => "sequence"
  | object _ => "map"

/-- The wording of a mismatch. -/
def Mismatch.message : Mismatch → String
  | kind found wanted => "invalid type: " ++ found.described ++ ", expected " ++ wanted
  | range n wanted => "invalid value: " ++ (Value.int n).described ++ ", expected " ++ wanted
  | missing field => "missing field `" ++ field ++ "`"
  | length n wanted => "invalid length " ++ toString n ++ ", expected " ++ wanted

namespace Decode

/-- A decoder of one type. -/
abbrev Decoder (α : Type) := Value → Except Mismatch α

/-- Accepts a text. -/
def text : Decoder String
  | .text s => .ok s
  | v => .error (.kind v "a string")

/-- Accepts a boolean. -/
def bool : Decoder Bool
  | .bool b => .ok b
  | v => .error (.kind v "a boolean")

/-- Accepts an integer from 0 to below `2 ^ bits`. -/
def unsigned (bits : Nat) : Decoder Nat
  | .int (.ofNat n) =>
    if n < Nat.pow 2 bits then .ok n else .error (.range n ("u" ++ toString bits))
  | .int n => .error (.range n ("u" ++ toString bits))
  | v => .error (.kind v ("u" ++ toString bits))

/-- The float nearest to an integer. -/
def nearest (n : Int) : Float :=
  if 0 ≤ n then Float.ofNat n.natAbs else -(Float.ofNat n.natAbs)

/-- Accepts a float, and an integer as the float nearest to it. -/
def float : Decoder Float
  | .float x => .ok x
  | .int n => .ok (nearest n)
  | v => .error (.kind v "f64")

/-- Accepts an array of what `item` accepts. -/
def list (item : Decoder α) : Decoder (List α)
  | .array items => items.mapM item
  | v => .error (.kind v "a sequence")

/-- A field of a record under construction: its name and how a value goes into the record. -/
structure Field (ρ : Type) where
  name : String
  put : ρ → Value → Except Mismatch ρ

/-- A field from the decoder of its type and the change it makes to the record. -/
def Field.of (name : String) (decoder : Decoder α) (change : ρ → α → ρ) : Field ρ :=
  ⟨name, fun r v => (decoder v).map (change r)⟩

/-- How a record is decoded: its name, the record with no field given, and its fields in the order
    of their declaration. The first `required` of them must be there when the record is given as an
    array. -/
structure Shape (ρ : Type) where
  name : String
  init : ρ
  fields : List (Field ρ)
  required : Nat := 0

/-- Whether an array may go on behind the last field of a record. -/
inductive Surplus
  | refused
  | ignored
deriving DecidableEq

/-- Puts the fields of an object into a record, one after the other; unknown ones are passed
    over. -/
def Shape.putFields (s : Shape ρ) (r : ρ) (fs : List (String × Value)) : Except Mismatch ρ :=
  fs.foldlM (fun r (name, v) =>
    match s.fields.find? (·.name == name) with
    | some f => f.put r v
    | none => .ok r) r

/-- Puts items into the fields they stand for. -/
def putItems (r : ρ) : List (Field ρ) → List Value → Except Mismatch ρ
  | f :: fs, v :: vs => do putItems (← f.put r v) fs vs
  | _, _ => .ok r

/-- Decodes a record. -/
def Shape.decode (s : Shape ρ) (surplus : Surplus) : Decoder ρ
  | .object fs => s.putFields s.init fs
  | .array items => do
    let r ← putItems s.init s.fields items
    if items.length < s.required then
      throw (.length items.length
        ("struct " ++ s.name ++ " with " ++ toString s.fields.length ++ " elements"))
    else if s.fields.length < items.length && surplus = .refused then
      throw (.length items.length "fewer elements in array")
    else return r
  | v => .error (.kind v ("struct " ++ s.name))

end Decode

end Gatehouse
