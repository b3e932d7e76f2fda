import Gatehouse.Storage.Backend

/-!
# Storage in memory

The tables outlive closing, but not the process.
-/

namespace Gatehouse.Storage

/-- A backend that keeps its tables in memory. -/
structure Memory where
  isOpen : Bool := false
  tables : Tables := .empty

namespace Memory

/-- Reads the tables of an open backend. -/
def reading {α : Type} (m : Memory) (f : Tables → Except Error α) : Result α × Memory :=
  if m.isOpen then ((f m.tables).mapError .error, m) else (fail .notOpen, m)

/-- Changes the tables of an open backend. -/
def changing (m : Memory) (f : Tables → Except Error Tables) : Result Unit × Memory :=
  if m.isOpen then
    match f m.tables with
    | .ok t => (.ok (), { m with tables := t })
    | .error e => (fail e, m)
  else (fail .notOpen, m)

/-- Makes a call. -/
def call (c : Call) (m : Memory) : Result c.Reply × Memory :=
  match c with
  | .openStore => if m.isOpen then (fail .alreadyOpen, m) else (.ok (), { m with isOpen := true })
  | .closeStore => if m.isOpen then (.ok (), { m with isOpen := false }) else (fail .notOpen, m)
  | .put kind key v => m.changing fun t => .ok (t.put kind key v)
  | .get kind key => m.reading fun t => t.get kind key
  | .list kind => m.reading fun t => .ok (t.list kind)
  | .delete kind key => m.changing fun t => t.delete kind key

instance : Backend Memory := ⟨call, isOpen⟩

end Memory

end Gatehouse.Storage
