import Gatehouse.Proofs.Storage.Crash
import Gatehouse.Proofs.Storage.Rereading
import Mathlib.Logic.Relation

/-!
# What opens again

A storage in a document takes every record that it is given and answers that it did. Whether the
document can be read again is only asked when it is opened the next time. It can be, and nothing has
changed, exactly if every record is read back where it stands: its floats are, and it is not nested
too deep.

## Key results

- `Changes.written`: after a change the document is the one of the tables
- `Written.reopens_iff`: then a storage opens again unchanged exactly if its tables are durable
- `reopens_iff_storable`: the same for whatever changes were made, as callers see it
-/

namespace Gatehouse.Storage

namespace Persistent

variable {δ : Type} [Disk δ] {Holds : Option Bytes → δ → Prop} {p q : Persistent δ} {t : Tables}

/-- A successful change. -/
inductive Changes : Persistent δ → Persistent δ → Prop
  | put {p q : Persistent δ} {kind key : String} {v : Value} (wellformed : Json.Wellformed v)
    (call : p.call (.put kind key v) = (.ok (), q)) : Changes p q
  | delete {p q : Persistent δ} {kind key : String}
    (call : p.call (.delete kind key) = (.ok (), q)) : Changes p q

/-- Closes a storage, and opens a new one in its place. -/
def reopen (p : Persistent δ) : Result Unit × Persistent δ :=
  (p.call .closeStore).2.renew.call .openStore

/-- Whether a storage can be closed and a new one opened in its place, which answers as it did. -/
structure Reopens (p : Persistent δ) : Prop where
  closes : (p.call .closeStore).1 = .ok ()
  opens : ∃ q, p.reopen = (.ok (), q) ∧
    (∀ kind key, (q.call (.get kind key)).1 = (p.call (.get kind key)).1) ∧
    ∀ kind, (q.call (.list kind)).1 = (p.call (.list kind)).1

/-- Whether a storage is open on a disk that holds the document of its tables. -/
structure Written (Holds : Option Bytes → δ → Prop) (p : Persistent δ) (t : Tables) : Prop where
  tables : p.handle.tables = some t
  wellformed : t.Wellformed
  document : Holds (some t.encode) p.disk

/-! ### Changes -/

/-- After a change that succeeded, the document is what was made of the tables. -/
theorem written_of_changing (hserves : Serves Holds) {doc : Option Bytes}
    {f : Tables → Except Error Tables} (ht : p.handle.tables = some t) (hholds : Holds doc p.disk)
    (hf : ∀ t', f t = .ok t' → t'.Wellformed) (hok : (p.handle.changing p.disk f).1 = .ok ()) :
    ∃ t', Written Holds
      ⟨(p.handle.changing p.disk f).2.1, (p.handle.changing p.disk f).2.2⟩ t' := by
  obtain ⟨-, heq⟩ | ⟨t₁, ht₁, ⟨e, -, heq⟩ | ⟨t', hft, ⟨e, d', -, heq⟩ | ⟨d', hpersist, heq⟩⟩⟩ :=
    p.handle.changing_cases p.disk f
  all_goals rw [heq] at hok ⊢
  · cases hok
  · cases hok
  · cases hok
  · cases ht₁.symm.trans ht
    -- The document was replaced, and a disk that serves holds the new one.
    obtain ⟨d', hreplace, hholds'⟩ := hserves.replace hholds t'.encode
    cases hpersist.symm.trans hreplace
    exact ⟨t', rfl, hf t' hft, hholds'⟩

/-- After a change the document is the one of the tables. -/
theorem Changes.written (hserves : Serves Holds) {doc : Option Bytes} (hchange : Changes p q)
    (ht : p.handle.tables = some t) (hwell : t.Wellformed) (hholds : Holds doc p.disk) :
    ∃ t', Written Holds q t' := by
  cases hchange with
  | @put kind key v wellformed hcall =>
    obtain rfl := congrArg Prod.snd hcall
    refine written_of_changing hserves (f := fun t => .ok (t.put kind key v)) ht hholds
      (fun t' ht' => ?_) (congrArg Prod.fst hcall)
    cases ht'
    exact Tables.forall_find?_put hwell wellformed kind key
  | @delete kind key hcall =>
    obtain rfl := congrArg Prod.snd hcall
    refine written_of_changing hserves (f := fun t => t.delete kind key) ht hholds
      (fun t' ht' => ?_) (congrArg Prod.fst hcall)
    exact Tables.forall_find?_delete hwell ht'

/-- However many changes were made, the document is the one of the tables. -/
theorem written_of_changes (hserves : Serves Holds) {doc : Option Bytes}
    (hchanges : Relation.TransGen Changes p q) (ht : p.handle.tables = some t)
    (hwell : t.Wellformed) (hholds : Holds doc p.disk) : ∃ t', Written Holds q t' := by
  induction hchanges with
  | single hfirst => exact hfirst.written hserves ht hwell hholds
  | tail _ hlast ih =>
    obtain ⟨t', ht', hwell', hholds'⟩ := ih
    exact hlast.written hserves ht' hwell' hholds'

/-- Where a disk serves, every record is taken, however deep it is nested. -/
theorem call_put_ok (hserves : Serves Holds) {doc : Option Bytes}
    (ht : p.handle.tables = some t) (hholds : Holds doc p.disk) (kind key : String) (v : Value) :
    (p.call (.put kind key v)).1 = .ok () := by
  obtain ⟨d', hreplace, -⟩ := hserves.replace hholds (t.put kind key v).encode
  simp only [call, Handle.call, Handle.changing, ht, Handle.persist, hreplace]

/-! ### Opening again -/

/-- What is got is what the tables of an open storage hold. -/
theorem get_eq_ok_iff (ht : p.handle.tables = some t) {kind key : String} {v : Value} :
    (p.call (.get kind key)).1 = .ok v ↔ t.find? kind key = some v := by
  simp only [call, Handle.call, Handle.reading, ht, Tables.get]
  rw [mapError_eq_ok_iff]
  cases t.find? kind key <;> simp

/-- What a storage is opened again with is what is read of its document. -/
theorem reopen_eq (hserves : Serves Holds) {doc : Option Bytes} (ht : p.handle.tables = some t)
    (hholds : Holds doc p.disk) :
    ∃ d, Disk.document? d = doc.map .ok ∧ p.reopen = match Handle.load d with
      | .ok t' => (.ok (), ⟨⟨some t'⟩, d⟩)
      | .error e => (fail e, ⟨⟨none⟩, d⟩) := by
  obtain ⟨d, hprepare, hholds'⟩ := hserves.prepare hholds
  refine ⟨d, hserves.document? hholds', ?_⟩
  simp only [reopen, call, Handle.call, Handle.isOpen, ht, Option.isSome_some, if_true, renew,
    Handle.openWith, Option.isSome_none, Bool.false_eq_true, if_false, hprepare]
  cases Handle.load d <;> rfl

/-- An open storage can be closed. -/
theorem closes_of_tables (ht : p.handle.tables = some t) :
    (p.call .closeStore).1 = .ok () := by
  simp only [call, Handle.call, Handle.isOpen, ht, Option.isSome_some, if_true]

/-- A storage whose document describes its tables opens again with them. -/
theorem reopens_of_described (hserves : Serves Holds) {doc : Option Bytes}
    (ht : p.handle.tables = some t) (hholds : Holds doc p.disk)
    (hdescribed : Described (doc.map .ok) t) : p.Reopens := by
  obtain ⟨d, hdoc, hreopen⟩ := reopen_eq hserves ht hholds
  have hload : Handle.load d = .ok t := Handle.load_eq_ok_iff.2 (hdoc.symm ▸ hdescribed)
  rw [hload] at hreopen
  refine ⟨closes_of_tables ht, _, hreopen, fun kind key => ?_, fun kind => ?_⟩
  · simp only [call, Handle.call, Handle.reading, ht]
  · simp only [call, Handle.call, Handle.reading, ht]

namespace Written

/-- A new object is opened with what the document is decoded to, or says that it cannot be. -/
theorem load (hserves : Serves Holds) (hp : Written Holds p t) :
    ∃ d, p.reopen = match Tables.decode t.encode with
      | .ok t' => (.ok (), ⟨⟨some t'⟩, d⟩)
      | .error e => (fail (.undecodable e), ⟨⟨none⟩, d⟩) := by
  obtain ⟨d, hdoc, hreopen⟩ := reopen_eq hserves hp.tables hp.document
  refine ⟨d, ?_⟩
  rw [hreopen, Handle.load, hdoc]
  dsimp only [Option.map_some]
  cases Tables.decode t.encode <;> rfl

/-- A storage opens again unchanged exactly if its tables are durable. -/
theorem reopens_iff (hserves : Serves Holds) (hp : Written Holds p t) :
    p.Reopens ↔ t.Durable := by
  constructor
  · rintro ⟨-, q, hopens, hget, -⟩
    obtain ⟨d, hreopen⟩ := hp.load hserves
    cases hdecode : Tables.decode t.encode with
    | error e =>
      rw [hdecode] at hreopen
      cases hreopen.symm.trans hopens
    | ok t' =>
      rw [hdecode] at hreopen
      cases hreopen.symm.trans hopens
      -- Both answer alike, so what was read again is what there was.
      refine Tables.storable_of_decode hp.wellformed hdecode fun kind key v hv => ?_
      have hv := (get_eq_ok_iff hp.tables).2 hv
      rw [← hget kind key] at hv
      exact (get_eq_ok_iff rfl).1 hv
  · intro hdurable
    exact reopens_of_described hserves hp.tables hp.document
      (.inr ⟨_, rfl, Tables.decode_encode hdurable⟩)

/-- A faithful storage that does not open again unchanged does not open at all. -/
theorem reopen_malformed (hserves : Serves Holds) (hp : Written Holds p t)
    (hfaithful : ∀ kind key v, t.find? kind key = some v → Json.Faithful v)
    (hdeep : ¬t.Durable) : p.reopen.1 = fail (.undecodable .malformed) := by
  obtain ⟨d, hreopen⟩ := hp.load hserves
  rw [hreopen, Tables.decode_encode_of_deep hfaithful hdeep]

end Written

end Persistent

/-- A disk that outlives crashes does what is asked of it without them. -/
theorem Endures.serves {δ : Type} [Disk δ] {Holds : Option Bytes → δ → Prop}
    (h : Endures Holds) : Serves Holds where
  prepare := h.prepare
  document? := h.document?
  replace hholds new := by
    obtain ⟨d', hreplace, hholds'⟩ := h.replace hholds [new]
    rw [List.flatten_singleton] at hholds'
    exact ⟨d', hreplace, hholds'⟩

open Persistent (Changes)

/-- A storage that was opened on a disk that serves, as folders do, opens again with what it had.
    After successful changes it takes every record there is, and opens again with what it has
    exactly if all its records are read back where they stand. If all of them are faithful, so that
    one must be nested too deep, it does not open at all. -/
theorem reopens_iff_storable {δ : Type} [Disk δ] {Holds : Option Bytes → δ → Prop}
    (hserves : Serves Holds) {doc : Option Bytes} {d : δ} {t : Tables} (hholds : Holds doc d)
    (hdescribed : Described (doc.map .ok) t) :
    Persistent.Reopens (⟨⟨some t⟩, d⟩ : Persistent δ) ∧
    ∀ p : Persistent δ, Relation.TransGen Changes ⟨⟨some t⟩, d⟩ p →
      (∀ kind key v, (p.call (.put kind key v)).1 = .ok ()) ∧
      (p.Reopens ↔ ∀ kind key v, (p.call (.get kind key)).1 = .ok v → Storable v) ∧
      ((∀ kind key v, (p.call (.get kind key)).1 = .ok v → Json.Faithful v) → ¬p.Reopens →
        p.reopen.1 = fail (.undecodable .malformed)) := by
  refine ⟨Persistent.reopens_of_described hserves rfl hholds hdescribed, fun p hchanges => ?_⟩
  -- What was there at first had been read, so it is well-formed like all that was put in.
  have hwell : t.Wellformed := by
    intro kind key v hv
    rcases hdescribed with ⟨-, rfl⟩ | ⟨s, -, hdecode⟩
    · rw [Tables.find?_empty] at hv
      cases hv
    · exact (Tables.wellformed_of_decode hdecode hv).1
  obtain ⟨t', hp⟩ := Persistent.written_of_changes hserves hchanges rfl hwell hholds
  have hget : ∀ {kind key v}, (p.call (.get kind key)).1 = .ok v ↔ t'.find? kind key = some v :=
    Persistent.get_eq_ok_iff hp.tables
  refine ⟨Persistent.call_put_ok hserves hp.tables hp.document, ?_, fun hfaithful hlost => ?_⟩
  · simp only [hp.reopens_iff hserves, Tables.Durable, hget]
  · refine hp.reopen_malformed hserves (fun kind key v hv => hfaithful kind key v (hget.2 hv)) ?_
    rwa [← hp.reopens_iff hserves]

/-- A record inside 126 arrays is taken and given back, and the storage does not open again. -/
theorem reopens_iff_storable_nested :
    let nodes : List (Place × FileNode) :=
      [(["db"], .folder), (["db", "keyhold.json"], .file [123, 125])]
    let d : Folder := ⟨⟨.ofList nodes⟩, ⟨[], ["", "db"]⟩⟩
    d.Working (some [123, 125]) ∧ Described (some (.ok [123, 125])) .empty ∧
      ∃ p : Persistent Folder, Relation.TransGen Changes ⟨⟨some .empty⟩, d⟩ p ∧
        (p.call (.get "note" "deep")).1 = .ok (Json.nested 126) ∧ ¬p.Reopens ∧
        p.reopen.1 = fail (.undecodable .malformed) := by
  intro nodes d
  have hworking : d.Working (some [123, 125]) := ⟨by rfl, by rfl, by rfl⟩
  have hdescribed : Described (some (.ok [123, 125])) .empty := .inr ⟨_, rfl, by rfl⟩
  let t := Tables.empty.put "note" "deep" (Json.nested 126)
  have hserves := Folder.endures.serves
  obtain ⟨d', hreplace, -⟩ := hserves.replace hworking.usable t.encode
  let p : Persistent Folder := ⟨⟨some t⟩, d'⟩
  have hput : Persistent.call (.put "note" "deep" (Json.nested 126)) ⟨⟨some .empty⟩, d⟩ =
      (.ok (), p) := by
    simp only [Persistent.call, Handle.call, Handle.changing, Handle.persist, t, p, hreplace]
  have hchanges : Relation.TransGen Changes ⟨⟨some .empty⟩, d⟩ p :=
    .single (.put (Json.faithful_nested 126).wellformed hput)
  obtain ⟨-, hiff, hmalformed⟩ :=
    (reopens_iff_storable hserves hworking.usable hdescribed).2 p hchanges
  have hfind : t.find? "note" "deep" = some (Json.nested 126) := by
    rw [Tables.find?_put, if_pos ⟨rfl, rfl⟩]
  have hget := (Persistent.get_eq_ok_iff (p := p) rfl).2 hfind
  have hlost : ¬p.Reopens := by
    intro hreopens
    have hdepth := (hiff.1 hreopens _ _ _ hget).2
    rw [Json.depth_nested] at hdepth
    exact absurd hdepth (by decide)
  refine ⟨hworking, hdescribed, p, hchanges, hget, hlost,
    hmalformed (fun kind key v hv => ?_) hlost⟩
  -- There is no other record.
  have hv := (Persistent.get_eq_ok_iff (p := p) rfl).1 hv
  rw [Tables.find?_put] at hv
  split at hv
  · cases hv
    exact Json.faithful_nested 126
  · cases hv

end Gatehouse.Storage
