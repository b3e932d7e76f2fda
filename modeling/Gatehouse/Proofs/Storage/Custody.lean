import Gatehouse.Proofs.Storage.Crash
import Gatehouse.Proofs.Storage.Rereading

/-!
# Storages between sessions

Between two sessions a storage is closed. What it keeps then are tables: those in memory, or those
that it will read from its document. A session with one call for data is answered from these tables,
and leaves the tables that the call makes of them, so whoever only holds such sessions need not know
where the tables are.

## Key results

- `Memory.call_eq`: a call for data on an open storage in memory, by its tables
- `custody_memory` / `custody_persistent`: storages in memory, and those in a document, keep tables
  from session to session
- `Persistent.rests_of_prepared`: a new object in a prepared place keeps what the document describes
- `Persistent.Rests.reopens`: what is kept is what a new object is opened with
-/

namespace Gatehouse.Storage

/-- Whether a call asks for data or changes them. -/
def Call.ForData : Call → Prop
  | openStore => False
  | closeStore => False
  | put _ _ _ => True
  | get _ _ => True
  | list _ => True
  | delete _ _ => True

/-- Whether a call puts in nothing but what is read back. -/
def Call.PutsStorable (c : Call) : Prop := ∀ kind key v, c = .put kind key v → Storable v

namespace Tables

/-- What an open storage with tables answers to a call. -/
def reply (t : Tables) : (c : Call) → Except Error c.Reply
  | .openStore => .error .alreadyOpen
  | .closeStore => .ok ()
  | .put _ _ _ => .ok ()
  | .get kind key => t.get kind key
  | .list kind => .ok (t.list kind)
  | .delete kind key => (t.delete kind key).map fun _ => ()

/-- The tables that a call leaves. -/
def left (t : Tables) (c : Call) : Tables := (c.written? t).getD t

/-- A deletion that succeeds leaves what it made of the tables. -/
theorem left_delete_of_ok {t t' : Tables} {kind key : String} (h : t.delete kind key = .ok t') :
    t.left (.delete kind key) = t' := by
  rw [left, Call.written?, h]
  rfl

/-- A deletion that fails leaves the tables. -/
theorem left_delete_of_error {t : Tables} {kind key : String} {e : Error}
    (h : t.delete kind key = .error e) : t.left (.delete kind key) = t := by
  rw [left, Call.written?, h]
  rfl

/-- Durable tables stay so, unless something is put in that is not read back. -/
theorem Durable.left {t : Tables} (h : t.Durable) {c : Call} (hc : c.PutsStorable) :
    (t.left c).Durable := by
  rw [Tables.left]
  cases hwritten : c.written? t with
  | none => exact h
  | some t' => exact (h.decode_written hc hwritten).1

/-- A call leaves the tables of the kinds that it does not speak of. -/
theorem get?_kinds_put_of_ne (t : Tables) {kind kind' : String} (h : kind' ≠ kind) (key : String)
    (v : Value) : (t.put kind key v).kinds.get? kind' = t.kinds.get? kind' := by
  rw [put, SortedMap.get?_insert, if_neg h]

/-- A deletion leaves the records of all other kinds. -/
theorem get?_kinds_delete_of_ne {t t' : Tables} {kind kind' key : String}
    (hdelete : t.delete kind key = .ok t') (h : kind' ≠ kind) :
    t'.kinds.get? kind' = t.kinds.get? kind' := by
  rw [delete] at hdelete
  split at hdelete
  · cases hdelete
    rw [SortedMap.get?_insert, if_neg h]
  · cases hdelete

end Tables

/-- What is described by a document is durable if all its floats are read back. -/
theorem Described.durable {doc : Option (Except SystemError Bytes)} {t : Tables}
    (h : Described doc t)
    (hfaithful : ∀ kind key v, t.find? kind key = some v → Json.Faithful v) : t.Durable := by
  rcases h with ⟨-, rfl⟩ | ⟨bytes, -, hdecode⟩
  · exact Tables.durable_empty
  · intro kind key v hv
    exact ⟨hfaithful kind key v hv, (Tables.wellformed_of_decode hdecode hv).2⟩

/-- Closed storages that keep tables from session to session: where `Rests s t` says that `s` keeps
    `t`, a session on `s` with one call for data is answered from `t`. -/
structure Custody {σ : Type} [Backend σ] (Rests : σ → Tables → Prop) : Prop where
  closed : ∀ {s t}, Rests s t → Backend.isOpen s = false
  serves : ∀ {s t}, Rests s t → ∀ c : Call, c.ForData → c.PutsStorable →
    ∃ s₁ s₂ s₃, Backend.call .openStore s = (.ok (), s₁) ∧
      Backend.call c s₁ = ((t.reply c).mapError .error, s₂) ∧
      Backend.call .closeStore s₂ = (.ok (), s₃) ∧ Rests s₃ (t.left c)

/-! ### In memory -/

namespace Memory

/-- A call for data on an open storage is answered from its tables. -/
theorem call_eq (t : Tables) {c : Call} (hc : c.ForData) :
    Memory.call c ⟨true, t⟩ = ((t.reply c).mapError .error, ⟨true, t.left c⟩) := by
  cases c with
  | openStore | closeStore => exact hc.elim
  | put | get | list => rfl
  | delete kind key =>
    simp only [call, changing, if_true, Tables.reply]
    cases hdelete : t.delete kind key with
    | ok t' => rw [Tables.left_delete_of_ok hdelete]; rfl
    | error e => rw [Tables.left_delete_of_error hdelete]; rfl

/-- Whether a closed storage keeps tables. -/
def Rests (m : Memory) (t : Tables) : Prop := m = ⟨false, t⟩

end Memory

/-- Storages in memory keep tables. -/
theorem custody_memory : Custody Memory.Rests where
  closed := by
    rintro _ t rfl
    rfl
  serves := by
    rintro _ t rfl c hc -
    exact ⟨⟨true, t⟩, ⟨true, t.left c⟩, ⟨false, t.left c⟩, rfl, Memory.call_eq t hc, rfl, rfl⟩

/-! ### In a document -/

namespace Persistent

variable {δ : Type} [Disk δ] {Holds : Option Bytes → δ → Prop} {p : Persistent δ} {t : Tables}

/-- Whether a closed storage keeps tables in its document: it will be opened with them. -/
structure Rests (Holds : Option Bytes → δ → Prop) (p : Persistent δ) (t : Tables) : Prop where
  closed : p.handle.tables = none
  durable : t.Durable
  opens : ∃ q, p.call .openStore = (.ok (), q) ∧ Mirrors Holds q ⟨true, t⟩

/-- A storage that was closed keeps the tables that it had. -/
theorem rests_of_mirrors (hendures : Endures Holds) (hdurable : t.Durable)
    (h : Mirrors Holds p ⟨false, t⟩) : Rests Holds p t where
  closed := h.tables
  durable := hdurable
  opens := by
    obtain ⟨d, hcall, hmirrors⟩ := h.openStore hendures rfl
    exact ⟨_, hcall, hmirrors⟩

/-- A new object keeps what the document describes in the place that is prepared for it. -/
theorem rests_of_prepared (hendures : Endures Holds) {d d' : δ} {doc : Option Bytes}
    (hprepare : Disk.prepare d = (.ok (), d')) (hholds : Holds doc d')
    (hdescribed : Described (doc.map .ok) t) (hdurable : t.Durable) :
    Rests Holds ⟨{}, d⟩ t where
  closed := rfl
  durable := hdurable
  opens := by
    have hload : Handle.load d' = .ok t :=
      Handle.load_eq_ok_iff.2 (by rwa [hendures.document? hholds])
    refine ⟨⟨⟨some t⟩, d'⟩, ?_, rfl, doc, hholds, hdescribed⟩
    simp only [call, Handle.call, Handle.openWith, Handle.isOpen, Option.isSome_none,
      Bool.false_eq_true, if_false, hprepare, hload]

/-- A new object takes the place of a closed one and nothing else. -/
theorem Rests.renew (h : Rests Holds p t) : Rests Holds p.renew t := by
  have hrenew : p.renew = p := by
    obtain ⟨⟨tables⟩, d⟩ := p
    obtain rfl : tables = none := h.closed
    rfl
  rwa [hrenew]

/-- What is kept is what a new object is opened with. -/
theorem Rests.reopens (h : Rests Holds p t) :
    ∃ q, p.renew.call .openStore = (.ok (), q) ∧ q.handle.tables = some t := by
  obtain ⟨q, hcall, hmirrors⟩ := h.renew.opens
  exact ⟨q, hcall, hmirrors.tables⟩

/-- Storages in a document keep tables, if the disk endures. -/
theorem custody_persistent (hendures : Endures Holds) : Custody (Rests Holds) where
  closed := by
    intro p t h
    have hclosed : p.handle.isOpen = p.handle.tables.isSome := rfl
    exact hclosed.trans (by rw [h.closed, Option.isSome_none])
  serves := by
    intro p t h c hc hstorable
    obtain ⟨q, hopen, hmirrors⟩ := h.opens
    -- The call is answered as in memory, and so is the closing.
    obtain ⟨hreply, hnext⟩ := hmirrors.callIn hendures [] c fun _ t' ht' =>
      (h.durable.decode_written hstorable ht').2
    rw [callIn_nil, Memory.call_eq t hc] at hreply hnext
    obtain ⟨hclosed, hlast⟩ := hnext.callIn hendures [] .closeStore fun _ _ ht' => nomatch ht'
    rw [callIn_nil] at hclosed hlast
    exact ⟨q, (q.call c).2, ((q.call c).2.call .closeStore).2, hopen, Prod.ext hreply rfl,
      Prod.ext hclosed rfl, rests_of_mirrors hendures (h.durable.left hstorable) hlast⟩

end Persistent

end Gatehouse.Storage
