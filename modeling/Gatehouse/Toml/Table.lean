import Gatehouse.SortedMap
import Gatehouse.Value

/-!
# Tables under construction

The statements of a TOML document, and the pairs of an inline table, build one table piece by piece.
A node of the table is a value, a table or a list of tables. A table that was made only because it
lies on the way to another one is `implicit`; one made on the way through the parts of a key is
`dotted`.

* A key may go through implicit tables only, and no key is set twice.
* A key with several parts may add to a dotted table only, a key with one part to one that is not.
* A header may name a table once; a table that was only implicit until then keeps what it holds.
-/

namespace Gatehouse.Toml

/-- What a key of a table under construction stands for. -/
inductive Node
  | value (v : Value)
  | table (implicit dotted : Bool) (fields : List (String × Node))
  /-- A list of tables, the latest one first. -/
  | tables (latestFirst : List (List (String × Node)))

/-- The fields of a table under construction. -/
abbrev Fields := List (String × Node)

namespace Fields

/-- The node of a key. -/
def node? (fs : Fields) (k : String) : Option Node := (fs.find? (·.1 == k)).map Prod.snd

/-- Puts a node in the place of the one that the key has. -/
def replace (fs : Fields) (k : String) (n : Node) : Fields :=
  fs.map fun e => if e.1 == k then (k, n) else e

/-- Sets a key that must be free. -/
def add (fs : Fields) (k : String) (n : Node) : Option Fields :=
  if (node? fs k).isSome then none else some (fs ++ [(k, n)])

/-- Changes the table at the end of a path; tables that are missing on the way are made. The change
    is told whether that table is dotted, and `isDotted` tells it of the table the path starts
    at. -/
def change (dotted : Bool) (f : Bool → Fields → Option Fields) :
    List String → Bool → Fields → Option Fields
  | [], isDotted, fs => f isDotted fs
  | k :: ks, _, fs =>
    match node? fs k with
    | none => do return fs ++ [(k, .table true dotted (← change dotted f ks dotted []))]
    | some (.table implicit isDotted inner) =>
      if dotted && !implicit then none
      else do return replace fs k (.table implicit isDotted (← change dotted f ks isDotted inner))
    | some (.tables (latest :: others)) => do
      return replace fs k (.tables ((← change dotted f ks false latest) :: others))
    | some (.tables []) => none
    | some (.value _) => none

/-- Sets a key of one or several parts to a value. -/
def set (fs : Fields) (path : List String) (v : Value) : Option Fields := do
  let last ← path.getLast?
  change true (fun isDotted inner =>
    if isDotted == path.dropLast.isEmpty then none else add inner last (.value v))
    path.dropLast false fs

/-- Sets keys one after the other. -/
def setAll (fs : Fields) (pairs : List (List String × Value)) : Option Fields :=
  pairs.foldlM (fun fs p => set fs p.1 p.2) fs

end Fields

mutual

/-- The value that a node has become. -/
def Node.toValue : Node → Value
  | .value v => v
  | .table _ _ fs => .object (fieldsToValues fs)
  | .tables all => .array (tablesToValues all).reverse

/-- The fields of a complete table, in increasing order of their keys. -/
def fieldsToValues : List (String × Node) → List (String × Value)
  | [] => []
  | (k, n) :: fs => SortedMap.insertEntry k n.toValue (fieldsToValues fs)

/-- The values of tables, in the same order. -/
def tablesToValues : List (List (String × Node)) → List Value
  | [] => []
  | fs :: rest => .object (fieldsToValues fs) :: tablesToValues rest

end

end Gatehouse.Toml
