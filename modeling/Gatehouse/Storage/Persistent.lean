import Gatehouse.Storage.Backend
import Gatehouse.Storage.Disk
import Gatehouse.Storage.Document

/-!
# Storage in a document

The tables are read from the document when the backend is opened and dropped when it is closed. A
change is applied to a copy of the tables, the copy replaces the document, and only then the copy
takes the place of the tables: a change that fails leaves tables and document as they were.
-/

namespace Gatehouse.Storage

/-- A handle on a document: the tables that were read from it, while it is open. -/
structure Handle where
  tables : Option Tables := none

namespace Handle

/-- Whether the handle is open. -/
def isOpen (h : Handle) : Bool := h.tables.isSome

variable {δ : Type} [Disk δ]

/-- The tables in the document; a place without a document has none. -/
def load (d : δ) : Except Error Tables :=
  match Disk.document? d with
  | none => .ok .empty
  | some (.error e) => .error (.unreadable e)
  | some (.ok bytes) => (Tables.decode bytes).mapError .undecodable

/-- Replaces the document by tables. -/
def persist (t : Tables) (d : δ) : Except SystemError Unit × δ :=
  performAll (replacing [t.encode]) d

/-- Opens a closed handle. -/
def openWith (h : Handle) (d : δ) : Result Unit × Handle × δ :=
  if h.isOpen then (fail .alreadyOpen, h, d)
  else
    match Disk.prepare d with
    | (.error e, d) => (fail (.system e), h, d)
    | (.ok (), d) =>
      match load d with
      | .error e => (fail e, h, d)
      | .ok t => (.ok (), ⟨some t⟩, d)

/-- Reads the tables of an open handle. -/
def reading {α : Type} (h : Handle) (d : δ) (f : Tables → Except Error α) : Result α × Handle × δ :=
  match h.tables with
  | none => (fail .notOpen, h, d)
  | some t => ((f t).mapError .error, h, d)

/-- Changes the tables of an open handle and its document. -/
def changing (h : Handle) (d : δ) (f : Tables → Except Error Tables) : Result Unit × Handle × δ :=
  match h.tables with
  | none => (fail .notOpen, h, d)
  | some t =>
    match f t with
    | .error e => (fail e, h, d)
    | .ok t' =>
      match persist t' d with
      | (.ok (), d) => (.ok (), ⟨some t'⟩, d)
      | (.error e, d) => (fail (.system e), h, d)

/-- Makes a call. -/
def call (c : Call) (h : Handle) (d : δ) : Result c.Reply × Handle × δ :=
  match c with
  | .openStore => h.openWith d
  | .closeStore => if h.isOpen then (.ok (), ⟨none⟩, d) else (fail .notOpen, h, d)
  | .put kind key v => h.changing d fun t => .ok (t.put kind key v)
  | .get kind key => h.reading d fun t => t.get kind key
  | .list kind => h.reading d fun t => .ok (t.list kind)
  | .delete kind key => h.changing d fun t => t.delete kind key

end Handle

/-- A handle together with the place of its document. -/
structure Persistent (δ : Type) where
  handle : Handle := {}
  disk : δ

namespace Persistent

variable {δ : Type} [Disk δ]

/-- Makes a call. -/
def call (c : Call) (p : Persistent δ) : Result c.Reply × Persistent δ :=
  let (r, h, d) := p.handle.call c p.disk
  (r, ⟨h, d⟩)

instance : Backend (Persistent δ) := ⟨call, fun p => p.handle.isOpen⟩

/-- A new, closed handle in the place of the old one. -/
def renew (p : Persistent δ) : Persistent δ := ⟨{}, p.disk⟩

end Persistent

end Gatehouse.Storage
