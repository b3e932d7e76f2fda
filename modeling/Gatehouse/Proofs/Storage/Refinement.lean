import Gatehouse.Proofs.Storage.Document
import Gatehouse.Proofs.Storage.Folder
import Gatehouse.Proofs.Storage.Store
import Gatehouse.Storage.Persistent

/-!
# Storages look like stores

A storage in memory keeps its tables while it is closed; a storage in a document drops them and
reads them again. Callers see no difference, because the document always is the one of the tables
that were dropped: it was written with the last change, or there was no change and there is none.

## Key results

- `Persistent.Represents.call`: a storage in a document answers every call as a store does
- `storages_refine_store`: no use of either storage tells it from a store
-/

namespace Gatehouse.Storage

/-- Whether tables are durable, hold the records of a store, and are what a document describes; no
    document describes no tables. -/
structure Keeps (t : Tables) (doc : Option Bytes) (s : Store) : Prop where
  agrees : Agrees t s
  durable : t.Durable
  document : (doc = none ∧ t = .empty) ∨ doc = some t.encode

namespace Keeps

variable {t t' : Tables} {doc : Option Bytes} {s : Store}

/-- Empty tables keep an empty store where there is no document. -/
theorem empty : Keeps .empty none {} := ⟨Agrees.empty, Tables.durable_empty, .inl ⟨rfl, rfl⟩⟩

/-- A record that is put in is kept, with the document that is written. -/
theorem put (h : Keeps t doc s) (kind key : String) {v : Value} (hv : Storable v) :
    Keeps (t.put kind key v) (some (t.put kind key v).encode)
      { s with records := s.records.insert (kind, key) v } :=
  ⟨h.agrees.put kind key v, h.durable.put hv kind key, .inr rfl⟩

/-- What is left after a deletion is kept, with the document that is written. -/
theorem delete (h : Keeps t doc s) {kind key : String} (hdelete : t.delete kind key = .ok t') :
    Keeps t' (some t'.encode) { s with records := s.records.erase (kind, key) } :=
  ⟨h.agrees.delete hdelete, h.durable.delete hdelete, .inr rfl⟩

/-- The tables are read again from the document that describes them. -/
theorem load {δ : Type} [Disk δ] (h : Keeps t doc s) {d : δ}
    (hdoc : Disk.document? d = doc.map .ok) : Handle.load d = .ok t := by
  unfold Handle.load
  rw [hdoc]
  rcases h.document with ⟨rfl, rfl⟩ | rfl
  · rfl
  · rw [Option.map_some]
    dsimp only
    rw [Tables.decode_encode h.durable]
    rfl

end Keeps

namespace Persistent

variable {δ : Type} [Disk δ] {Holds : Option Bytes → δ → Prop}

/-- Whether a storage in a document is as its callers see it. While it is closed it has no tables,
    and its disk may still have to be prepared. -/
inductive Represents (Holds : Option Bytes → δ → Prop) : Persistent δ → Store → Prop
  | closed {t : Tables} {doc : Option Bytes} {d d' : δ} {s : Store} (keeps : Keeps t doc s)
    (isClosed : s.isOpen = false) (prepares : Disk.prepare d = (.ok (), d'))
    (holds : Holds doc d') : Represents Holds ⟨⟨none⟩, d⟩ s
  | opened {t : Tables} {doc : Option Bytes} {d : δ} {s : Store} (keeps : Keeps t doc s)
    (isOpen : s.isOpen = true) (holds : Holds doc d) : Represents Holds ⟨⟨some t⟩, d⟩ s

/-- A closed storage is opened with the tables it had, and refuses all other calls. -/
private theorem call_closed (hserves : Serves Holds) {t : Tables} {doc : Option Bytes} {d d' : δ}
    {s : Store} (keeps : Keeps t doc s) (isClosed : s.isOpen = false)
    (prepares : Disk.prepare d = (.ok (), d')) (holds : Holds doc d') (c : Call) :
    (Persistent.call c ⟨⟨none⟩, d⟩).1 = (s.call c).1 ∧
      Represents Holds (Persistent.call c ⟨⟨none⟩, d⟩).2 (s.call c).2 := by
  have hsame : Represents Holds ⟨⟨none⟩, d⟩ s := .closed keeps isClosed prepares holds
  cases c with
  | openStore =>
    -- What is loaded are the tables that were dropped.
    have hload := keeps.load (hserves.document? holds)
    simp only [Persistent.call, Handle.call, Handle.openWith, Handle.isOpen, Option.isSome_none,
      prepares, hload, Store.call, isClosed, Bool.false_eq_true, if_false]
    exact ⟨trivial, .opened ⟨keeps.agrees, keeps.durable, keeps.document⟩ rfl holds⟩
  | closeStore | put | get | list | delete =>
    simp only [Persistent.call, Handle.call, Handle.changing, Handle.reading, Handle.isOpen,
      Option.isSome_none, Store.call, Store.whenOpen, isClosed, Bool.false_eq_true, if_false]
    exact ⟨trivial, hsame⟩

/-- An open storage reads its tables, and changes its document together with them. -/
private theorem call_opened (hserves : Serves Holds) {t : Tables} {doc : Option Bytes} {d : δ}
    {s : Store} (keeps : Keeps t doc s) (isOpen : s.isOpen = true) (holds : Holds doc d) (c : Call)
    (hc : ∀ kind key v, c = .put kind key v → Storable v) :
    (Persistent.call c ⟨⟨some t⟩, d⟩).1 = (s.call c).1 ∧
      Represents Holds (Persistent.call c ⟨⟨some t⟩, d⟩).2 (s.call c).2 := by
  have hsame : Represents Holds ⟨⟨some t⟩, d⟩ s := .opened keeps isOpen holds
  cases c with
  | openStore =>
    simp only [Persistent.call, Handle.call, Handle.openWith, Handle.isOpen, Option.isSome_some,
      Store.call, isOpen, if_true]
    exact ⟨trivial, hsame⟩
  | closeStore =>
    simp only [Persistent.call, Handle.call, Handle.isOpen, Option.isSome_some, Store.call,
      Store.whenOpen, isOpen, if_true]
    obtain ⟨d', hprepare, holds'⟩ := hserves.prepare holds
    exact ⟨trivial, .closed ⟨keeps.agrees, keeps.durable, keeps.document⟩ rfl hprepare holds'⟩
  | put kind key v =>
    -- The document is replaced before the tables are, and this succeeds.
    have hkeeps := keeps.put kind key (hc kind key v rfl)
    obtain ⟨d', hreplace, holds'⟩ := hserves.replace holds (t.put kind key v).encode
    simp only [Persistent.call, Handle.call, Handle.changing, Handle.persist, hreplace, Store.call,
      Store.whenOpen, isOpen, if_true]
    exact ⟨trivial, .opened ⟨hkeeps.agrees, hkeeps.durable, hkeeps.document⟩ rfl holds'⟩
  | get kind key =>
    simp only [Persistent.call, Handle.call, Handle.reading, Store.call, Store.whenOpen, isOpen,
      if_true]
    cases hv : s.records.get? (kind, key) with
    | some v =>
      rw [keeps.agrees.get_of_some hv]
      exact ⟨rfl, hsame⟩
    | none =>
      rw [keeps.agrees.get_of_none hv]
      exact ⟨rfl, hsame⟩
  | list kind =>
    simp only [Persistent.call, Handle.call, Handle.reading, Store.call, Store.whenOpen, isOpen,
      if_true, keeps.agrees.list]
    exact ⟨rfl, hsame⟩
  | delete kind key =>
    simp only [Persistent.call, Handle.call, Handle.changing, Handle.persist, Store.call,
      Store.whenOpen, isOpen, if_true]
    -- Without a value nothing is written.
    cases hv : s.records.get? (kind, key) with
    | some v =>
      obtain ⟨t', hdelete⟩ := keeps.agrees.delete_of_some hv
      have hkeeps := keeps.delete hdelete
      obtain ⟨d', hreplace, holds'⟩ := hserves.replace holds t'.encode
      simp only [hdelete, hreplace]
      exact ⟨trivial, .opened ⟨hkeeps.agrees, hkeeps.durable, hkeeps.document⟩ rfl holds'⟩
    | none =>
      rw [keeps.agrees.delete_of_none hv]
      exact ⟨rfl, hsame⟩

/-- Every call is answered as the store answers it. -/
theorem Represents.call (hserves : Serves Holds) {p : Persistent δ} {s : Store}
    (h : Represents Holds p s) (c : Call) (hc : ∀ kind key v, c = .put kind key v → Storable v) :
    (Persistent.call c p).1 = (s.call c).1 ∧
      Represents Holds (Persistent.call c p).2 (s.call c).2 := by
  cases h with
  | closed keeps isClosed prepares holds =>
    exact call_closed hserves keeps isClosed prepares holds c
  | opened keeps isOpen holds => exact call_opened hserves keeps isOpen holds c hc

/-- A storage is open as the store that it represents. -/
theorem Represents.isOpen {p : Persistent δ} {s : Store} (h : Represents Holds p s) :
    p.handle.isOpen = s.isOpen := by
  cases h with
  | closed keeps isClosed prepares holds => exact isClosed.symm
  | opened keeps isOpen holds => exact isOpen.symm

/-- A new object finds what the old one left on the disk. -/
theorem Represents.renew (hserves : Serves Holds) {p : Persistent δ} {s : Store}
    (h : Represents Holds p s) : Represents Holds p.renew s.renew := by
  cases h with
  | closed keeps isClosed prepares holds =>
    exact .closed ⟨keeps.agrees, keeps.durable, keeps.document⟩ rfl prepares holds
  | opened keeps isOpen holds =>
    obtain ⟨d', hprepare, holds'⟩ := hserves.prepare holds
    exact .closed ⟨keeps.agrees, keeps.durable, keeps.document⟩ rfl hprepare holds'

/-- A storage in a document, however often its object is replaced, cannot be told from a store. -/
theorem observe_eq (hserves : Serves Holds) {d d' : δ} (prepares : Disk.prepare d = (.ok (), d'))
    (holds : Holds none d') {uses : List Use}
    (huses : ∀ kind key v, .call (.put kind key v) ∈ uses → Storable v) :
    observe renew uses ({ disk := d } : Persistent δ) = observe Store.renew uses ({} : Store) := by
  refine observe_eq_of_simulation (R := Represents Holds)
    (P := fun u => ∀ kind key v, u = .call (.put kind key v) → Storable v) ?_ ?_
    (.closed Keeps.empty rfl prepares holds)
  · intro u p s hu h
    cases u with
    | call c =>
      obtain ⟨hreply, hnext⟩ := h.call hserves c fun kind key v hc =>
        hu kind key v (congrArg Use.call hc)
      exact ⟨congrArg (Sight.reply c) hreply, hnext⟩
    | askOpen => exact ⟨congrArg Sight.openness h.isOpen, h⟩
    | renew => exact ⟨rfl, h.renew hserves⟩
  · rintro u hu kind key v rfl
    exact huses kind key v hu

end Persistent

/-- No use of a storage in memory, and none of a storage in a document, tells it from a store, nor
    the one from the other. The store lists exactly the keys that a kind has, in the order of their
    bytes. -/
theorem storages_refine_store :
    (∀ uses : List Use, .renew ∉ uses →
      observe id uses ({} : Memory) = observe Store.renew uses ({} : Store)) ∧
    (∀ (d : Folder) (uses : List Use), d.Fresh →
      (∀ kind key v, .call (.put kind key v) ∈ uses → Storable v) →
      observe Persistent.renew uses ({ disk := d } : Persistent Folder) =
          observe Store.renew uses ({} : Store) ∧
        (.renew ∉ uses → observe Persistent.renew uses ({ disk := d } : Persistent Folder) =
          observe id uses ({} : Memory))) ∧
    ∀ (s : Store) (kind : String),
      (∀ key, key ∈ s.keys kind ↔ (s.records.get? (kind, key)).isSome) ∧
      (s.keys kind).Pairwise fun k k' => k.toUTF8.toList < k'.toUTF8.toList := by
  refine ⟨fun uses h => Memory.observe_eq h, ?_, fun s kind => ⟨fun key => Store.mem_keys, ?_⟩⟩
  · intro d uses hfresh huses
    obtain ⟨d', hprepare, holds⟩ := hfresh.holds
    have hstore := Persistent.observe_eq Folder.serves hprepare holds huses
    exact ⟨hstore, fun h => hstore.trans (Memory.observe_eq h).symm⟩
  · exact s.keys_sorted kind

/-- An account survives the replacement of the object that stored it, and a storage in memory that
    was only opened has none. -/
theorem storages_refine_store_account :
    let d : Folder := ⟨.empty, ⟨[], ["", "db"]⟩⟩
    let v : Value := .object [("email", .text "a@b.com")]
    observe id [.call .openStore, .call (.get "account" "a@b.com")] ({} : Memory) =
        [.reply .openStore (.ok ()), .reply (.get "account" "a@b.com")
          (fail (.notFound "account" "a@b.com"))] ∧
      d.Fresh ∧ Storable v ∧
      observe Persistent.renew [.call .openStore, .call (.put "account" "a@b.com" v), .renew,
          .call .openStore, .call (.get "account" "a@b.com")] ({ disk := d } : Persistent Folder) =
        [.reply .openStore (.ok ()), .reply (.put "account" "a@b.com" v) (.ok ()), .renewed,
          .reply .openStore (.ok ()), .reply (.get "account" "a@b.com") (.ok v)] := by
  intro d v
  have hfresh : d.Fresh := Folder.fresh_of_holds rfl
    ⟨["db"], .inr (by rfl), by rfl, by rfl, by rfl, by rfl⟩
  have hv : Storable v := by
    refine ⟨.object (by simp) ?_, by decide⟩
    intro f hf
    rw [List.mem_singleton.1 hf]
    exact .text "a@b.com"
  have huses : ∀ kind key v', Use.call (.put kind key v') ∈ [Use.call .openStore,
      .call (.put "account" "a@b.com" v), .renew, .call .openStore,
      .call (.get "account" "a@b.com")] → Storable v' := by
    intro kind key v' hmem
    simp only [List.mem_cons, Use.call.injEq, Call.put.injEq, reduceCtorEq, List.not_mem_nil,
      false_or, or_false] at hmem
    obtain ⟨-, -, rfl⟩ := hmem
    exact hv
  have hmemory := storages_refine_store.1 [.call .openStore, .call (.get "account" "a@b.com")]
    (by simp)
  have hfolder := (storages_refine_store.2.1 d _ hfresh huses).1
  exact ⟨hmemory.trans rfl, hfresh, hv, hfolder.trans rfl⟩

end Gatehouse.Storage
