/-!
# Structured values

A `Value` is what a document holds: the nested values that accounts carry, that storage keeps and
that configuration is decoded from. A field list may name a key twice while it is being written; a
value that was read names each key once, in increasing order.
-/

namespace Gatehouse

/-- A nested value of a document. -/
inductive Value
  | null
  | bool (b : Bool)
  | int (n : Int)
  | float (x : Float)
  | text (s : String)
  | array (items : List Value)
  | object (fields : List (String × Value))
deriving Inhabited, BEq, Repr

namespace Value

/-- The value of the first field with this name, if the value is an object that has one. -/
def field? (v : Value) (name : String) : Option Value :=
  match v with
  | object fields => (fields.find? (·.1 == name)).map Prod.snd
  | _ => none

mutual

/-- How many arrays and objects enclose the innermost value. -/
def depth : Value → Nat
  | array items => depthItems items + 1
  | object fields => depthFields fields + 1
  | _ => 0

/-- The greatest depth among items. -/
def depthItems : List Value → Nat
  | [] => 0
  | v :: vs => max v.depth (depthItems vs)

/-- The greatest depth among field values. -/
def depthFields : List (String × Value) → Nat
  | [] => 0
  | (_, v) :: fs => max v.depth (depthFields fs)

end

end Value

end Gatehouse
