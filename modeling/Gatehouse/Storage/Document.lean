import Gatehouse.Json.Printer
import Gatehouse.Storage.Tables

/-!
# The written form of tables

Tables are written as one JSON object of objects, compactly. Of two tables or records with one name
the last one in the text counts.
-/

namespace Gatehouse.Storage

/-- Tables as a value. -/
def Tables.toValue (t : Tables) : Value :=
  .object (t.kinds.entries.map fun e => (e.1, .object e.2.entries))

/-- The bytes that tables are written as. -/
def Tables.encode (t : Tables) : List UInt8 := (Json.compact t.toValue).toUTF8.toList

/-- Reads the records of one kind. -/
def readTable (depth : Nat) : Json.Parser (SortedMap Value) :=
  Json.object depth .empty fun depth table key s => do
    let (v, s) ← Json.value depth (← Json.colon s)
    return (table.insert key v, s)

/-- Reads tables. -/
def readTables (depth : Nat) : Json.Parser (SortedMap (SortedMap Value)) :=
  Json.object depth .empty fun depth kinds kind s => do
    let (table, s) ← readTable depth (← Json.colon s)
    return (kinds.insert kind table, s)

/-- The tables that bytes describe. -/
def Tables.decode (bytes : List UInt8) : Except Json.Fault Tables :=
  (Json.whole (readTables Json.maxDepth) bytes).map Tables.mk

end Gatehouse.Storage
