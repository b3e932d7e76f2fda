import Gatehouse.Account.Admin
import Gatehouse.Proofs.Account.Fields
import Gatehouse.Proofs.Json.Depth
import Gatehouse.Proofs.Storage.Reopening
import Mathlib.Algebra.Group.Nat.Defs

/-!
# Accounts that are put and got

An account is put under its email address and got from there again. A storage gives back the very
value that it was given, so what comes of it is what comes of reading the object of the account: the
account itself, unless one of its further fields has the name of one of its own.

No account has such a field that was made, that was read from a value or that was read from a text.

## Key results

- `survives_iff_of_call`: on a storage that gives back what it was given
- `unshadowed_of_ofText`: an account that was read from a text has no such field
- `fields_survive`: what is kept by reading, writing and storing an account
-/

namespace Gatehouse

/-! ### Reading an account from a text -/

namespace Json

/-- An integer that is read without a sign is within its bounds. -/
theorem lt_of_unsigned {s t : Bytes} {n : Nat} (h : unsigned s = .ok (n, t)) : n < 2 ^ 64 := by
  unfold unsigned at h
  split at h
  · cases h
  · split at h
    · obtain ⟨r, hvalue, h⟩ := ok_of_bind h
      split at h
      · cases h
        cases (wellformed_of_value hvalue).1 with
        | int low high => exact Int.ofNat_lt.1 high
      · cases h
    · exact absurd h (Storage.mismatch_ne_ok _ _)

end Json

namespace Account

open Storage (Backend Disk Folder Memory Persistent Script Serves Tables)

variable {a : Account}

/-- Whether none of the further fields of a draft has the name of one of the account's own, and the
    time of creation is within its bounds. -/
structure Draft.Apart (d : Draft) : Prop where
  email : d.extra.get? "email" = none
  created : d.extra.get? "created" = none
  bounded : ∀ n ∈ d.created, n < 2 ^ 64

/-- A draft with nothing in it has no further fields. -/
theorem Draft.apart_empty : Draft.Apart {} := ⟨rfl, rfl, nofun⟩

/-- A field that is read goes where its name belongs. -/
theorem Draft.Apart.readField {d d' : Draft} (h : d.Apart) {depth : Nat} {name : String}
    {s t : Bytes} (hread : readField depth d name s = .ok (d', t)) : d'.Apart := by
  unfold Account.readField at hread
  -- A field is read into the place that its name gives it, or not at all.
  split at hread
  · split at hread
    · cases hread
    · obtain ⟨_, -, hread⟩ := Json.ok_of_bind hread
      obtain ⟨⟨email, _⟩, -, hread⟩ := Json.ok_of_bind hread
      cases hread
      exact ⟨h.email, h.created, h.bounded⟩
  · next hemail =>
    split at hread
    · split at hread
      · cases hread
      · obtain ⟨_, -, hread⟩ := Json.ok_of_bind hread
        obtain ⟨⟨n, _⟩, hn, hread⟩ := Json.ok_of_bind hread
        cases hread
        refine ⟨h.email, h.created, ?_⟩
        intro n' hn'
        cases hn'
        exact Json.lt_of_unsigned hn
    · next hcreated =>
      obtain ⟨_, -, hread⟩ := Json.ok_of_bind hread
      obtain ⟨⟨v, _⟩, -, hread⟩ := Json.ok_of_bind hread
      cases hread
      -- A further field has neither of the names that the account has taken.
      refine ⟨?_, ?_, h.bounded⟩
      · rw [SortedMap.get?_insert, if_neg (Ne.symm hemail)]
        exact h.email
      · rw [SortedMap.get?_insert, if_neg (Ne.symm hcreated)]
        exact h.created

/-- No further field of an account that was read from a text has the name of one of its own. -/
theorem unshadowed_of_ofText {s : String} (h : ofText s = .ok a) :
    a.Unshadowed ∧ a.created < 2 ^ 64 := by
  obtain ⟨⟨a', _⟩, hparse, h⟩ := Json.ok_of_bind h
  obtain ⟨⟨d, _⟩, hobject, hparse⟩ := Json.ok_of_bind hparse
  obtain ⟨_, _, -, hfields⟩ := Storage.object_cases hobject
  have hapart : d.Apart :=
    Json.invariant_of_fields (P := Draft.Apart) (fun h hread => h.readField hread)
      Draft.apart_empty hfields
  -- What stands behind the account in the text plays no part.
  have ha : d.finish = .ok a := by
    dsimp only at hparse h
    split at hparse
    · next hfinish =>
      cases hparse
      split at h
      · cases h
        exact hfinish
      · cases h
    · cases hparse
  unfold Draft.finish at ha
  split at ha
  · cases ha
    refine ⟨⟨hapart.email, hapart.created⟩, ?_⟩
    have hbounded := hapart.bounded
    cases hn : d.created with
    | none => exact Nat.two_pow_pos 64
    | some n => exact hbounded n hn
  · cases ha

/-- A new account has no further fields. -/
theorem unshadowed_new (email : String) (now : Nat) : (Account.new email now).Unshadowed :=
  ⟨rfl, rfl⟩

/-! ### Through a storage -/

/-- Puts an account under its key. -/
def store (a : Account) : Script (Except Storage.Error Unit) :=
  Script.call (.put kind a.key a.toValue)

/-- Gets the account under a key. -/
def fetch (key : String) : Script (Except Storage.Error Account) :=
  (Script.call (.get kind key)).map fun r =>
    r.bind fun v => (ofValue v).mapError .illTyped

/-- Whether an account that is put is what is got under its email address. -/
def Survives {σ : Type} [Backend σ] (a : Account) (s : σ) : Prop :=
  (a.store.run s).1 = .value (.ok ()) ∧
    ((fetch a.email).run (a.store.run s).2).1 = .value (.ok a)

section Backends

variable {σ : Type} [Backend σ] {s s' : σ}

/-- An account that is put in is stored. -/
theorem run_store_ok (h : Backend.call (.put kind a.key a.toValue) s = (.ok (), s')) :
    a.store.run s = (.value (.ok ()), s') := by
  simp only [store, Script.call, Script.run, h]

/-- An account that cannot be put in is not stored, and the error says why. -/
theorem run_store_fail {e : Storage.Error}
    (h : Backend.call (.put kind a.key a.toValue) s = (Storage.fail e, s')) :
    a.store.run s = (.value (.error e), s') := by
  simp only [store, Script.call, Script.run, h, Storage.fail]

/-- A record that is got is decoded, and may be none of an account. -/
theorem run_fetch_ok {key : String} {v : Value}
    (h : (Backend.call (.get kind key) s).1 = .ok v) :
    ((fetch key).run s).1 = .value ((ofValue v).mapError .illTyped) := by
  unfold fetch
  cases hcall : Backend.call (.get kind key) s with
  | mk r s₁ =>
    rw [hcall] at h
    cases h
    simp only [Script.call, Script.map, Script.run, hcall, Except.bind]

/-- On a storage that gives back the value that it was given, an account is kept exactly if it is
    read back from its object. -/
theorem survives_iff_of_call (hcreated : a.created < 2 ^ 64)
    (hput : Backend.call (.put kind a.key a.toValue) s = (.ok (), s'))
    (hget : (Backend.call (.get kind a.key) s').1 = .ok a.toValue) :
    a.Survives s ↔ a.Unshadowed := by
  have hfetch : ((fetch a.email).run s').1 = .value ((ofValue a.toValue).mapError .illTyped) :=
    run_fetch_ok hget
  unfold Survives
  rw [run_store_ok hput, hfetch, ← ofValue_toValue_iff hcreated]
  cases ofValue a.toValue <;> simp [Except.mapError]

end Backends

/-- In memory nothing can go wrong. -/
theorem survives_memory_iff (hcreated : a.created < 2 ^ 64) {s : Memory} (hopen : s.isOpen = true) :
    a.Survives s ↔ a.Unshadowed := by
  have hput : Backend.call (.put kind a.key a.toValue) s =
      (.ok (), { s with tables := s.tables.put kind a.key a.toValue }) := by
    show s.changing (fun t => .ok (t.put kind a.key a.toValue)) = _
    simp [Memory.changing, hopen]
  apply survives_iff_of_call hcreated hput
  show (Memory.reading { s with tables := s.tables.put kind a.key a.toValue }
    fun t => t.get kind a.key).1 = _
  simp [Memory.reading, hopen, Tables.get, Tables.find?_put, Except.mapError]

section Documents

variable {δ : Type} [Disk δ]

/-- A document cannot be replaced, or it is with the tables as they are then read. -/
theorem survives_persistent (hcreated : a.created < 2 ^ 64) {p : Persistent δ}
    (hopen : p.handle.isOpen = true) :
    (∃ e p', a.store.run p = (.value (.error (.system e)), p')) ∨
      (a.Survives p ↔ a.Unshadowed) := by
  have hcases := Storage.Handle.changing_cases p.handle p.disk fun t =>
    .ok (t.put kind a.key a.toValue)
  have hcall : Backend.call (.put kind a.key a.toValue) p =
      ((p.handle.changing p.disk fun t => .ok (t.put kind a.key a.toValue)).1,
        ⟨(p.handle.changing p.disk fun t => .ok (t.put kind a.key a.toValue)).2.1,
          (p.handle.changing p.disk fun t => .ok (t.put kind a.key a.toValue)).2.2⟩) := rfl
  -- An open storage puts a record into its tables; only the disk may fail.
  rcases hcases with ⟨hnone, -⟩ | ⟨t, -, ⟨e, hfails, -⟩ | ⟨t', hput, hpersist⟩⟩
  · rw [Storage.Handle.isOpen, hnone] at hopen
    cases hopen
  · cases hfails
  · cases hput
    rcases hpersist with ⟨e, d', -, hchanging⟩ | ⟨d', -, hchanging⟩
    · rw [hchanging] at hcall
      exact .inl ⟨e, _, run_store_fail hcall⟩
    · rw [hchanging] at hcall
      right
      apply survives_iff_of_call hcreated hcall
      apply (Persistent.get_eq_ok_iff rfl).2
      rw [Tables.find?_put, if_pos ⟨rfl, rfl⟩]

/-- Where a disk serves the document is replaced. -/
theorem survives_served_iff (hcreated : a.created < 2 ^ 64) {Holds : Option Bytes → δ → Prop}
    (hserves : Serves Holds) {doc : Option Bytes} {d : δ} (hholds : Holds doc d) (t : Tables) :
    a.Survives (⟨⟨some t⟩, d⟩ : Persistent δ) ↔ a.Unshadowed := by
  rcases survives_persistent hcreated (p := ⟨⟨some t⟩, d⟩) rfl with ⟨e, p', hfails⟩ | hiff
  · have hput := Persistent.call_put_ok (p := ⟨⟨some t⟩, d⟩) hserves rfl hholds kind a.key a.toValue
    cases hcall : Persistent.call (.put kind a.key a.toValue) (⟨⟨some t⟩, d⟩ : Persistent δ) with
    | mk r p₁ =>
      rw [hcall] at hput
      cases hput
      rw [run_store_ok hcall] at hfails
      cases hfails
  · exact hiff

end Documents

/-- A value is read as an account if and only if it is an object with an email address that is a
    text, and with no time of creation or one from 0 to `2^64 - 1`; the account is then stored as
    the object, with a time of creation of 0 if there was none. Put in an open storage and got from
    it, an account comes back as it was if and only if none of its further fields has the name of
    one of its own: always in memory and on a disk that serves, and on any other unless the document
    cannot be replaced. None has in an account that was made, that was read from a value or that was
    read from a text. -/
theorem fields_survive :
    (∀ v a, ofValue v = .ok a → ∃ fields, v = .object fields) ∧
    (∀ m : SortedMap Value, (∃ a, ofValue (.object m.entries) = .ok a) ↔
      (∃ s, m.get? "email" = some (.text s)) ∧
        (m.get? "created" = none ∨ ∃ n : Nat, n < 2 ^ 64 ∧ m.get? "created" = some (.int n))) ∧
    (∀ (m : SortedMap Value) a, ofValue (.object m.entries) = .ok a →
      a.toValue = .object (withCreated m).entries) ∧
    (∀ a : Account, a.created < 2 ^ 64 →
      (∀ s : Memory, s.isOpen = true → (a.Survives s ↔ a.Unshadowed)) ∧
      (∀ (δ : Type) [Disk δ] (p : Persistent δ), p.handle.isOpen = true →
        (∃ e p', a.store.run p = (.value (.error (.system e)), p')) ∨
          (a.Survives p ↔ a.Unshadowed)) ∧
      ∀ (δ : Type) [Disk δ] (Holds : Option Bytes → δ → Prop), Serves Holds →
        ∀ doc d, Holds doc d → ∀ t,
          (a.Survives (⟨⟨some t⟩, d⟩ : Persistent δ) ↔ a.Unshadowed)) ∧
    (∀ email now, (Account.new email now).Unshadowed) ∧
    (∀ v a, ofValue v = .ok a → a.Unshadowed ∧ a.created < 2 ^ 64) ∧
    ∀ s a, ofText s = .ok a → a.Unshadowed ∧ a.created < 2 ^ 64 := by
  refine ⟨fun v a => exists_fields_of_ofValue, ?_, ?_, ?_, unshadowed_new,
    fun v a => unshadowed_of_ofValue, fun s a => unshadowed_of_ofText⟩
  · intro m
    rw [← exists_describes_iff]
    simp only [ofValue_eq_ok_iff]
  · intro m a h
    exact toValue_of_describes (ofValue_eq_ok_iff.1 h)
  · intro a hcreated
    refine ⟨fun s => survives_memory_iff hcreated, ?_, ?_⟩
    · intro δ _ p hopen
      exact survives_persistent hcreated hopen
    · intro δ _ Holds hserves doc d hholds t
      exact survives_served_iff hcreated hserves hholds t

/-- An account with a list of devices is read from an object without a time of creation, and
    survives in memory and in a folder; an account with another email address among its further
    fields does not. -/
theorem fields_survive_devices :
    let devices : String × Value := ("devices", .array [.text "laptop"])
    let m : SortedMap Value := ⟨[devices, ("email", .text "a@b.com")],
      List.pairwise_pair.2 (show "devices" < "email" by decide)⟩
    let a : Account := ⟨"a@b.com", 0, ⟨[devices], List.pairwise_singleton _ _⟩⟩
    let b : Account := ⟨"a@b.com", 0, ⟨[("email", .text "c@d.com")], List.pairwise_singleton _ _⟩⟩
    let nodes : List (Place × FileNode) :=
      [(["db"], .folder), (["db", "keyhold.json"], .file [123, 125])]
    let d : Folder := ⟨⟨.ofList nodes⟩, ⟨[], ["", "db"]⟩⟩
    ofValue (.object m.entries) = .ok a ∧
      a.toValue = .object [("created", .int 0), devices, ("email", .text "a@b.com")] ∧
      d.Working (some [123, 125]) ∧
      a.Survives ({ isOpen := true } : Memory) ∧
      a.Survives (⟨⟨some .empty⟩, d⟩ : Persistent Folder) ∧
      ¬b.Survives ({ isOpen := true } : Memory) ∧
      ¬b.Survives (⟨⟨some .empty⟩, d⟩ : Persistent Folder) := by
  intro devices m a b nodes d
  have hworking : d.Working (some [123, 125]) := ⟨by rfl, by rfl, by rfl⟩
  have hread : ofValue (.object m.entries) = .ok a := by rfl
  have hadded : (withCreated m).entries =
      [("created", .int 0), devices, ("email", .text "a@b.com")] := by
    have hmissing : m.get? "created" = none := by rfl
    have hfirst : "created" < "devices" := by decide
    unfold withCreated
    rw [hmissing]
    show SortedMap.insertEntry "created" (.int 0) [devices, ("email", .text "a@b.com")] = _
    rw [SortedMap.insertEntry, if_pos hfirst]
  obtain ⟨-, -, hwritten, hsurvives, -, hplain, -⟩ := fields_survive
  obtain ⟨hunshadowed, hcreated⟩ := hplain _ a hread
  obtain ⟨hmemory, -, hfolder⟩ := hsurvives a hcreated
  obtain ⟨hmemory', -, hfolder'⟩ := hsurvives b (Nat.two_pow_pos 64)
  have hshadowed : ¬b.Unshadowed := by
    intro h
    cases h.1
  have hserves := Folder.endures.serves
  refine ⟨hread, hadded ▸ hwritten m a hread, hworking, (hmemory _ rfl).2 hunshadowed,
    (hfolder _ _ hserves _ d hworking.usable _).2 hunshadowed, ?_, ?_⟩
  · exact mt (hmemory' _ rfl).1 hshadowed
  · exact mt (hfolder' _ _ hserves _ d hworking.usable _).1 hshadowed

end Account

end Gatehouse
