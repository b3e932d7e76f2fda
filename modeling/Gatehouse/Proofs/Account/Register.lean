import Gatehouse.Proofs.Account.Record
import Gatehouse.Proofs.Account.Session
import Gatehouse.Proofs.Storage.Custody
import Gatehouse.Proofs.Text.Bytes

/-!
# A register of accounts

Administration keeps a register: a map from keys to accounts, in which every operation reads or
changes the one entry it speaks of. The storage may be in memory or in a document, and a new object
may take its place between any two operations; what is in the register, and what is stored under any
other kind, does not depend on that. An email address is a key as it stands, with the white space
around it, but no operation takes one that is blank.

## Key results

- `get?_accountsOf` / `exists_registers_iff`: the register that records of accounts stand for
- `Registers.keep`: what a call for data makes of the records is what an operation makes of the
  register
- `run_session`: a session on a storage that keeps tables
- `administer_of_custody`: operations one after the other
- `administration_keeps_register`: on storages in memory and in folders
- `blank_refused_and_float_rewritten`: an address that is refused before it is looked up, and a float
  that does not survive a change to another account
-/

namespace Gatehouse.Account

open Storage (Backend Call Custody Disk Folder Memory Persistent Script Tables)
open Storage.Script (Ending)

/-! ### The register -/

/-- The accounts among the records of a table. -/
def accountsOf (table : SortedMap Value) : SortedMap Account where
  entries := table.entries.filterMap fun e => (ofValue e.2).toOption.map (e.1, ·)
  sorted := by
    refine table.sorted.filterMap _ fun e e' hlt a ha a' ha' => ?_
    obtain ⟨_, -, rfl⟩ := Option.map_eq_some_iff.1 ha
    obtain ⟨_, -, rfl⟩ := Option.map_eq_some_iff.1 ha'
    exact hlt

/-- An account is under a key if a record that can be read as one is. -/
theorem get?_accountsOf (table : SortedMap Value) (key : String) :
    (accountsOf table).get? key = (table.get? key).bind fun v => (ofValue v).toOption := by
  refine Option.ext fun a => ?_
  rw [← SortedMap.mem_entries_iff, Option.bind_eq_some_iff]
  simp only [accountsOf, List.mem_filterMap, Option.map_eq_some_iff, Prod.mk.injEq,
    ← SortedMap.mem_entries_iff]
  constructor
  · rintro ⟨⟨key', v⟩, hmem, a', ha', rfl, rfl⟩
    exact ⟨v, hmem, ha'⟩
  · rintro ⟨v, hmem, ha⟩
    exact ⟨(key, v), hmem, a, ha, rfl, rfl⟩

/-- Whether the records of accounts in tables are those of a register. -/
def Registers (t : Tables) (r : SortedMap Account) : Prop :=
  ∀ key, (t.find? kind key).map ofValue = (r.get? key).map .ok

/-- Tables have a register if and only if every record of an account in them is one. -/
theorem exists_registers_iff (t : Tables) :
    (∃ r, Registers t r) ↔ ∀ key v, t.find? kind key = some v → ∃ a, ofValue v = .ok a := by
  constructor
  · rintro ⟨r, hr⟩ key v hv
    have hkey := hr key
    rw [hv, Option.map_some] at hkey
    obtain ⟨a, -, ha⟩ := Option.map_eq_some_iff.1 hkey.symm
    exact ⟨a, ha.symm⟩
  · intro h
    refine ⟨accountsOf ((t.kinds.get? kind).getD .empty), fun key => ?_⟩
    have hfind : t.find? kind key = ((t.kinds.get? kind).getD .empty).get? key := by
      rw [Tables.find?]
      cases t.kinds.get? kind <;> rfl
    rw [get?_accountsOf, ← hfind]
    cases hv : t.find? kind key with
    | none => rfl
    | some v =>
      obtain ⟨a, ha⟩ := h key v hv
      rw [Option.bind_some, Option.map_some, ha]
      rfl

/-- What an operation gives, and the register that it leaves. -/
def Operation.keep : (o : Operation) → SortedMap Account → AdminResult o.Value × SortedMap Account
  | .list, r => (.ok (if r.keys.isEmpty then none else some r.keys), r)
  | .create email now, r =>
    if Text.isBlank email then (.error .missingEmail, r)
    else (.ok (.new email now), r.insert email (.new email now))
  | .display email, r =>
    if Text.isBlank email then (.error .missingEmail, r)
    else
      match r.get? email with
      | some a => (.ok a, r)
      | none => (.error (.notFound email), r)
  | .delete email, r =>
    if Text.isBlank email then (.error .missingEmail, r)
    else
      match r.get? email with
      | some _ => (.ok (), r.erase email)
      | none => (.error (.notFound email), r)

/-- Whether the time at which an operation creates an account can be told in 64 bits. -/
def Operation.Timely : Operation → Prop
  | .create _ now => now < 2 ^ 64
  | .list => True
  | .display _ => True
  | .delete _ => True

/-- Between opening and closing, an operation asks for data. -/
theorem Operation.forData_dataCall (o : Operation) : o.dataCall.ForData := by
  cases o <;> trivial

/-- What an operation puts in can be stored. -/
theorem Operation.Timely.putsStorable {o : Operation} (h : o.Timely) : o.dataCall.PutsStorable := by
  intro kind key v hcall
  cases o with
  | create email now =>
    cases hcall
    exact storable_toValue_new _ h
  | list | display | delete => cases hcall

/-! ### Records and the register -/

/-- What a session makes of the reply to its call for data. -/
def Operation.made (o : Operation) (reply : Except Storage.Error o.dataCall.Reply) :
    AdminResult o.Value :=
  (reply.mapError AdminError.ofStorage).bind o.read

namespace Registers

variable {t t' : Tables} {r : SortedMap Account} {email : String}

/-- A record is missing where an account is. -/
theorem find?_eq_none_iff (h : Registers t r) (key : String) :
    t.find? kind key = none ↔ r.get? key = none := by
  rw [← Option.map_eq_none_iff, h key, Option.map_eq_none_iff]

/-- A record of an account is read as the account. -/
theorem exists_find? (h : Registers t r) {key : String} {a : Account} (ha : r.get? key = some a) :
    ∃ v, t.find? kind key = some v ∧ ofValue v = .ok a := by
  have hkey := h key
  rw [ha, Option.map_some] at hkey
  exact Option.map_eq_some_iff.1 hkey

/-- The keys that are listed are those of the register. -/
theorem list_eq (h : Registers t r) : t.list kind = r.keys := by
  refine Text.eq_of_pairwise_lt (t.list_sorted kind) r.keys_sorted fun key => ?_
  rw [Tables.mem_list, SortedMap.mem_keys, ← Option.ne_none_iff_isSome, ← Option.ne_none_iff_isSome,
    ne_eq, ne_eq, h.find?_eq_none_iff]

/-- A new account goes into the register as its record goes into the tables. -/
theorem put (h : Registers t r) (email : String) {now : Nat} (hnow : now < 2 ^ 64) :
    Registers (t.put kind email (Account.new email now).toValue)
      (r.insert email (.new email now)) := by
  intro key
  rw [Tables.find?_put, SortedMap.get?_insert]
  by_cases hkey : key = email
  · rw [if_pos ⟨rfl, hkey⟩, if_pos hkey, Option.map_some, ofValue_toValue_new email hnow]
    rfl
  · rw [if_neg fun hboth => hkey hboth.2, if_neg hkey]
    exact h key

/-- An account goes out of the register as its record goes out of the tables. -/
theorem erase (h : Registers t r) (hdelete : t.delete kind email = .ok t') :
    Registers t' (r.erase email) := by
  intro key
  rw [Tables.find?_delete hdelete, SortedMap.get?_erase]
  by_cases hkey : key = email
  · rw [if_pos ⟨rfl, hkey⟩, if_pos hkey]
    rfl
  · rw [if_neg fun hboth => hkey hboth.2, if_neg hkey]
    exact h key

/-- What the call for data makes of the records is what the operation makes of the register. -/
theorem keep (h : Registers t r) {o : Operation} (ho : ¬o.Blank) (htimely : o.Timely) :
    o.made (t.reply o.dataCall) = (o.keep r).1 ∧
      Registers (t.left o.dataCall) (o.keep r).2 ∧
      ∀ kind', kind' ≠ kind → (t.left o.dataCall).kinds.get? kind' = t.kinds.get? kind' := by
  have hnotblank : ∀ {email : String}, Text.trimmed email ≠ [] → ¬Text.isBlank email = true :=
    fun hne hblank => hne ((Text.isBlank_iff_trimmed _).1 hblank)
  -- What is called for is answered by the tables, and by the register for the one key alike.
  cases o with
  | list =>
    have hreply : t.reply (.list kind) = .ok r.keys := congrArg Except.ok h.list_eq
    simp only [Operation.made, Operation.dataCall, hreply, Operation.keep]
    exact ⟨rfl, h, fun _ _ => rfl⟩
  | create email now =>
    simp only [Operation.keep, if_neg (hnotblank ho)]
    exact ⟨rfl, h.put email htimely, fun _ hne => Tables.get?_kinds_put_of_ne t hne email _⟩
  | display email =>
    simp only [Operation.keep, if_neg (hnotblank ho)]
    cases ha : r.get? email with
    | none =>
      have hreply : t.reply (.get kind email) = .error (.notFound kind email) := by
        rw [Tables.reply, Tables.get, (h.find?_eq_none_iff email).2 ha]
      simp only [Operation.made, Operation.dataCall, hreply]
      exact ⟨rfl, h, fun _ _ => rfl⟩
    | some a =>
      obtain ⟨v, hv, hread⟩ := h.exists_find? ha
      have hreply : t.reply (.get kind email) = .ok v := by
        rw [Tables.reply, Tables.get, hv]
      simp only [Operation.made, Operation.dataCall, hreply, Except.mapError, Except.bind,
        Operation.read, hread]
      exact ⟨trivial, h, fun _ _ => rfl⟩
  | delete email =>
    simp only [Operation.keep, if_neg (hnotblank ho)]
    cases ha : r.get? email with
    | none =>
      have hdelete : t.delete kind email = .error (.notFound kind email) := by
        rw [Tables.delete, (h.find?_eq_none_iff email).2 ha]
      simp only [Operation.made, Operation.dataCall, Tables.reply, hdelete,
        Tables.left_delete_of_error hdelete]
      exact ⟨rfl, h, fun _ _ => trivial⟩
    | some a =>
      obtain ⟨v, hv, -⟩ := h.exists_find? ha
      obtain ⟨t', hdelete⟩ : ∃ t', t.delete kind email = .ok t' := by
        rw [Tables.delete, hv]
        exact ⟨_, rfl⟩
      simp only [Operation.made, Operation.dataCall, Tables.reply, hdelete,
        Tables.left_delete_of_ok hdelete]
      exact ⟨rfl, h.erase hdelete, fun _ hne => Tables.get?_kinds_delete_of_ne hdelete hne⟩

end Registers

/-! ### Sessions -/

section Session

variable {σ : Type} [Backend σ] {Rests : σ → Tables → Prop} {s : σ} {t : Tables}

/-- A session on a storage that keeps tables gives what is made of the answer from these tables, and
    leaves a storage that keeps the tables that the call leaves. -/
theorem run_session (h : Custody Rests) (hs : Rests s t) {α : Type} {c : Call} (hc : c.ForData)
    (hstorable : c.PutsStorable) (read : c.Reply → AdminResult α) :
    ∃ s', (session c read).run s =
        (.value (((t.reply c).mapError AdminError.ofStorage).bind read), s') ∧
      Rests s' (t.left c) := by
  obtain ⟨s₁, s₂, s₃, hopen, hcall, hclose, hrests⟩ := h.serves hs c hc hstorable
  refine ⟨s₃, ?_, hrests⟩
  cases hreply : t.reply c with
  | error e =>
    rw [hreply] at hcall
    simp only [session, Script.run, hopen, hcall, Except.mapError, hclose, joinClose]
    rfl
  | ok reply =>
    rw [hreply] at hcall
    simp only [session, Script.run, hopen, hcall, Except.mapError, hclose, Except.bind]
    cases hread : read reply <;> simp only [joinClose, Script.run]

/-- An operation whose email address is not blank is a session. -/
theorem Operation.script_of_not_blank {o : Operation} (h : ¬o.Blank) :
    o.script = session o.dataCall o.read := by
  cases o with
  | list => rfl
  | create email | display email | delete email =>
    exact if_neg fun hblank => h ((Text.isBlank_iff_trimmed email).1 hblank)

/-- An operation that gets a blank email address says so, and makes no call. -/
theorem Operation.script_of_blank {o : Operation} (h : o.Blank) (r : SortedMap Account) :
    o.script = .done (.error .missingEmail) ∧ o.keep r = (.error .missingEmail, r) := by
  cases o with
  | list => exact h.elim
  | create email | display email | delete email =>
    have hblank := (Text.isBlank_iff_trimmed email).2 h
    exact ⟨if_pos hblank, if_pos hblank⟩

/-- An operation gives what it gives on the register, and leaves a storage of the register that it
    leaves. -/
theorem run_script (h : Custody Rests) (hs : Rests s t) {r : SortedMap Account}
    (hr : Registers t r) {o : Operation} (htimely : o.Timely) :
    ∃ s' t', o.script.run s = (.value (o.keep r).1, s') ∧ Rests s' t' ∧
      Registers t' (o.keep r).2 ∧
      ∀ kind', kind' ≠ kind → t'.kinds.get? kind' = t.kinds.get? kind' := by
  by_cases hblank : o.Blank
  · obtain ⟨hscript, hkeep⟩ := Operation.script_of_blank hblank r
    rw [hscript, hkeep]
    exact ⟨s, t, rfl, hs, hr, fun _ _ => rfl⟩
  · obtain ⟨hmade, hregisters, hothers⟩ := hr.keep hblank htimely
    obtain ⟨s', hrun, hrests⟩ :=
      run_session h hs o.forData_dataCall htimely.putsStorable o.read
    rw [Operation.script_of_not_blank hblank, hrun, ← hmade]
    exact ⟨s', t.left o.dataCall, rfl, hrests, hregisters, hothers⟩

end Session

/-! ### Operations one after the other -/

/-- An operation, and whether a new object takes the place of the storage behind it. -/
structure Visit where
  operation : Operation
  renews : Bool

/-- What came of an operation, and whether the storage was open then. -/
structure Outcome where
  operation : Operation
  ending : Ending (AdminResult operation.Value)
  isOpen : Bool

/-- Operations on a storage, one after the other. -/
def administer {σ : Type} [Backend σ] (renew : σ → σ) : List Visit → σ → List Outcome × σ
  | [], s => ([], s)
  | v :: vs, s =>
    let (ending, s) := v.operation.script.run s
    let (outcomes, s') := administer renew vs (if v.renews then renew s else s)
    (⟨v.operation, ending, Backend.isOpen s⟩ :: outcomes, s')

/-- The same operations on a register, which nobody opens. -/
def keepAll : List Visit → SortedMap Account → List Outcome × SortedMap Account
  | [], r => ([], r)
  | v :: vs, r =>
    let (result, r) := v.operation.keep r
    let (outcomes, r') := keepAll vs r
    (⟨v.operation, .value result, false⟩ :: outcomes, r')

/-- Operations on a storage that keeps tables give what they give on the register, leave the storage
    closed each time, and leave the records of other kinds. -/
theorem administer_of_custody {σ : Type} [Backend σ] {Rests : σ → Tables → Prop}
    (h : Custody Rests) (renew : σ → σ) (hrenew : ∀ {s t}, Rests s t → Rests (renew s) t)
    {vs : List Visit} (htimely : ∀ v ∈ vs, v.operation.Timely) {s : σ} {t : Tables}
    (hs : Rests s t) {r : SortedMap Account} (hr : Registers t r) :
    (administer renew vs s).1 = (keepAll vs r).1 ∧
      ∃ t', Rests (administer renew vs s).2 t' ∧ Registers t' (keepAll vs r).2 ∧
        ∀ kind', kind' ≠ kind → t'.kinds.get? kind' = t.kinds.get? kind' := by
  -- Induction on the operations: each leaves tables of the register, which a new object keeps too.
  induction vs generalizing s t r with
  | nil => exact ⟨rfl, t, hs, hr, fun _ _ => rfl⟩
  | cons v vs ih =>
    obtain ⟨s₁, t₁, hrun, hrests, hregisters, hothers⟩ :=
      run_script h hs hr (htimely v List.mem_cons_self)
    have hrests' : Rests (if v.renews then renew s₁ else s₁) t₁ := by
      split
      · exact hrenew hrests
      · exact hrests
    obtain ⟨houtcomes, t', hlast, hregisters', hothers'⟩ :=
      ih (fun v' hv' => htimely v' (List.mem_cons_of_mem v hv')) hrests' hregisters
    simp only [administer, keepAll, hrun, houtcomes, h.closed hrests]
    exact ⟨trivial, t', hlast, hregisters', fun kind' hne =>
      (hothers' kind' hne).trans (hothers kind' hne)⟩

/-- On a closed storage in memory, and on one in a folder whose object is replaced now and then,
    operations give what they give on the register of the records that were there at first, and
    leave the storage closed each time. What is stored in the end, in a document as a new object
    will read it, are the records of the register, with those of all other kinds as they were. Which
    records of accounts there may be at first is told by whether they are read as accounts; those in
    a document must be read back as they are written. The keys of a register stand in the order of
    their bytes. -/
theorem administration_keeps_register :
    (∀ (vs : List Visit) (m : Memory) (r : SortedMap Account), m.isOpen = false →
      Registers m.tables r → (∀ v ∈ vs, v.operation.Timely) →
      let done := administer id vs m
      done.1 = (keepAll vs r).1 ∧ done.2.isOpen = false ∧
        Registers done.2.tables (keepAll vs r).2 ∧
        ∀ kind', kind' ≠ kind → done.2.tables.kinds.get? kind' = m.tables.kinds.get? kind') ∧
    (∀ (vs : List Visit) (d d' : Folder) (doc : Option Bytes) (t : Tables)
      (r : SortedMap Account), Disk.prepare d = (.ok (), d') → d'.Working doc →
      Storage.Described (doc.map .ok) t →
      (∀ kind key v, t.find? kind key = some v → Json.Faithful v) →
      Registers t r → (∀ v ∈ vs, v.operation.Timely) →
      let done := administer Persistent.renew vs { disk := d }
      done.1 = (keepAll vs r).1 ∧ done.2.handle.isOpen = false ∧
        ∃ t' q, done.2.renew.call .openStore = (.ok (), q) ∧ q.handle.tables = some t' ∧
          Registers t' (keepAll vs r).2 ∧
          ∀ kind', kind' ≠ kind → t'.kinds.get? kind' = t.kinds.get? kind') ∧
    (∀ t : Tables, (∃ r, Registers t r) ↔
      ∀ key v, t.find? kind key = some v → ∃ a, ofValue v = .ok a) ∧
    ∀ r : SortedMap Account, (∀ key, key ∈ r.keys ↔ (r.get? key).isSome) ∧
      r.keys.Pairwise fun k k' => k.toUTF8.toList < k'.toUTF8.toList := by
  refine ⟨?_, ?_, exists_registers_iff, fun r => ⟨fun key => SortedMap.mem_keys, ?_⟩⟩
  · intro vs m r hclosed hr htimely done
    have hrests : m.Rests m.tables := by rw [Memory.Rests, ← hclosed]
    obtain ⟨houtcomes, t', hlast, hregisters, hothers⟩ :=
      administer_of_custody Storage.custody_memory id (fun h => h) htimely hrests hr
    have hdone : done.2 = ⟨false, t'⟩ := hlast
    rw [hdone]
    exact ⟨houtcomes, rfl, hregisters, hothers⟩
  · intro vs d d' doc t r hprepare hworking hdescribed hfaithful hr htimely
    have hcustody := Persistent.custody_persistent Folder.endures
    have hrests := Persistent.rests_of_prepared Folder.endures hprepare hworking.usable hdescribed
      (hdescribed.durable hfaithful)
    obtain ⟨houtcomes, t', hlast, hregisters, hothers⟩ :=
      administer_of_custody hcustody Persistent.renew Persistent.Rests.renew htimely hrests hr
    obtain ⟨q, hopen, htables⟩ := hlast.reopens
    exact ⟨houtcomes, hcustody.closed hlast, t', q, hopen, htables, hregisters, hothers⟩
  · exact r.keys_sorted.imp fun hlt => (Text.lt_iff_toUTF8_lt _ _).1 hlt

/-- The bits of a value that is a float. -/
def floatBits? : Value → Option UInt64
  | .float x => some x.toBits
  | _ => none

/-- A document with the note `5e39`, which is read as 4.9999999999999995e+39. -/
def driftingNote : Bytes := "\x7b\"note\":\x7b\"k\":5e39\x7d\x7d".toUTF8.toList

/-- A folder that holds a document with a note that a rewriting changes. -/
def driftingFolder : Folder where
  tree := ⟨.ofList [(["db"], .folder), (["db", "keyhold.json"], .file driftingNote)]⟩
  path := ⟨[], ["", "db"]⟩

/-- Neither that addresses may be blank nor that floats are read back as they are written can be
    left out. A blank address is refused where a register has nothing under it, and would say so. A
    note of `5e39` in a document is read as 4.9999999999999995e+39, and when an account has been
    created and a new object opens the document, it is 4.999999999999999e+39. -/
theorem blank_refused_and_float_rewritten :
    (let m : Memory := {}
     m.isOpen = false ∧ Registers m.tables .empty ∧
      (SortedMap.empty : SortedMap Account).get? "" = none ∧
      (Operation.display "").script.run m = (.value (.error .missingEmail), m) ∧
      (Operation.display "").script.run m ≠ (.value (.error (.notFound "")), m)) ∧
    (let vs : List Visit := [⟨.create "a@b.com" 7, true⟩]
     let done := administer Persistent.renew vs { disk := driftingFolder }
     driftingFolder.Working (some driftingNote) ∧ (∀ v ∈ vs, v.operation.Timely) ∧
      ∃ t t' q, Storage.Described (some (.ok driftingNote)) t ∧ Registers t .empty ∧
        done.2.renew.call .openStore = (.ok (), q) ∧ q.handle.tables = some t' ∧
        (t.find? "note" "k").bind floatBits? = some 5200922176483712164 ∧
        (t'.find? "note" "k").bind floatBits? = some 5200922176483712163 ∧
        t'.kinds.get? "note" ≠ t.kinds.get? "note") := by
  constructor
  · intro m
    have hrun : (Operation.display "").script.run m = (.value (.error .missingEmail), m) := by rfl
    refine ⟨rfl, fun _ => rfl, rfl, hrun, fun hnot => ?_⟩
    cases hrun.symm.trans hnot
  · intro vs done
    -- What the document holds, before and after, is computed.
    have hbefore : (Tables.decode driftingNote).toOption.any fun t =>
        (t.kinds.get? kind).isNone &&
          (t.find? "note" "k").bind floatBits? == some 5200922176483712164 := by decide +kernel
    have hafter : (done.2.renew.call .openStore).2.handle.tables.any fun t =>
        (t.find? "note" "k").bind floatBits? == some 5200922176483712163 := by decide +kernel
    have hopened : (done.2.renew.call .openStore).1 = .ok () := by
      have hok : (done.2.renew.call .openStore).1.isOk := by decide +kernel
      cases hopen : (done.2.renew.call .openStore).1 with
      | ok u => rfl
      | error e => rw [hopen] at hok; cases hok
    cases hdecoded : Tables.decode driftingNote with
    | error e => rw [hdecoded] at hbefore; cases hbefore
    | ok t =>
      cases htables : (done.2.renew.call .openStore).2.handle.tables with
      | none => rw [htables] at hafter; cases hafter
      | some t' =>
        simp only [hdecoded, Except.toOption, Option.any_some, Bool.and_eq_true,
          Option.isNone_iff_eq_none, beq_iff_eq] at hbefore
        simp only [htables, Option.any_some, beq_iff_eq] at hafter
        have hnone : ∀ key, t.find? kind key = none := fun key => by
          rw [Tables.find?, hbefore.1, Option.bind_none]
        refine ⟨⟨by rfl, by rfl, by rfl⟩, ?_, t, t', (done.2.renew.call .openStore).2,
          .inr ⟨_, rfl, hdecoded⟩, fun key => ?_, Prod.ext hopened rfl, htables, hbefore.2, hafter,
          fun hsame => ?_⟩
        · intro v hv
          rw [List.mem_singleton.1 hv]
          show 7 < 2 ^ 64
          omega
        · rw [hnone]
          rfl
        · rw [Tables.find?, hsame, ← Tables.find?, hbefore.2] at hafter
          exact absurd hafter (by decide)

/-- An account in a document is listed with a new one, whose email address begins with a blank, and
    is deleted. A record of another kind stays. -/
theorem administration_keeps_register_blanks :
    let old : Value := .object [("email", .text "x@y.z")]
    let t : Tables := (Tables.empty.put kind "x@y.z" old).put "note" "k" (.int 1)
    let r : SortedMap Account := SortedMap.empty.insert "x@y.z" ⟨"x@y.z", 0, .empty⟩
    let vs : List Visit := [⟨.create " a@b.com" 7, true⟩, ⟨.list, false⟩, ⟨.delete "x@y.z", true⟩,
      ⟨.display "x@y.z", false⟩, ⟨.display "\u2003", true⟩, ⟨.display " a@b.com", false⟩]
    let outcomes : List Outcome := [
      ⟨.create " a@b.com" 7, .value (.ok (.new " a@b.com" 7)), false⟩,
      ⟨.list, .value (.ok (some [" a@b.com", "x@y.z"])), false⟩,
      ⟨.delete "x@y.z", .value (.ok ()), false⟩,
      ⟨.display "x@y.z", .value (.error (.notFound "x@y.z")), false⟩,
      ⟨.display "\u2003", .value (.error .missingEmail), false⟩,
      ⟨.display " a@b.com", .value (.ok (.new " a@b.com" 7)), false⟩]
    let nodes : List (Place × FileNode) :=
      [(["db"], .folder), (["db", "keyhold.json"], .file t.encode)]
    let d : Folder := ⟨⟨.ofList nodes⟩, ⟨[], ["", "db"]⟩⟩
    d.Working (some t.encode) ∧ Storage.Described (some (.ok t.encode)) t ∧
      (∀ kind key v, t.find? kind key = some v → Json.Faithful v) ∧ Registers t r ∧
      (∀ v ∈ vs, v.operation.Timely) ∧
      (administer id vs ({ tables := t } : Memory)).1 = outcomes ∧
      (administer Persistent.renew vs { disk := d }).1 = outcomes ∧
      ∃ t' q, (administer Persistent.renew vs { disk := d }).2.renew.call .openStore = (.ok (), q) ∧
        q.handle.tables = some t' ∧ t'.find? "note" "k" = some (.int 1) := by
  intro old t r vs outcomes nodes d
  have hold : Storage.Storable old :=
    ⟨.object (List.pairwise_singleton _ _) fun f hf => List.mem_singleton.1 hf ▸ .text _,
      by decide⟩
  have hdurable : t.Durable :=
    (Tables.durable_empty.put hold kind "x@y.z").put ⟨.int (by decide) (by decide), by decide⟩ _ _
  have hworking : d.Working (some t.encode) := ⟨by rfl, by rfl, by rfl⟩
  have hdescribed : Storage.Described (some (.ok t.encode)) t :=
    .inr ⟨t.encode, rfl, Tables.decode_encode hdurable⟩
  have hfaithful : ∀ kind key v, t.find? kind key = some v → Json.Faithful v :=
    fun kind key v hv => (hdurable kind key v hv).1
  have hr : Registers t r := by
    intro key
    rw [Tables.find?_put, Tables.find?_put, SortedMap.get?_insert]
    by_cases hkey : key = "x@y.z"
    · rw [hkey]
      rfl
    · rw [if_neg fun h => absurd h.1 (by decide), if_neg fun h => hkey h.2, if_neg hkey]
      rfl
  have htimely : ∀ v ∈ vs, v.operation.Timely := by
    simp [vs, Operation.Timely]
  have hkeep : (keepAll vs r).1 = outcomes := by rfl
  obtain ⟨hmemory, hfolder, -, -⟩ := administration_keeps_register
  obtain ⟨hsame, -⟩ := hmemory vs { tables := t } r rfl hr htimely
  obtain ⟨hsame', -, t', q, hopen, htables, -, hothers⟩ :=
    hfolder vs d d (some t.encode) t r hworking.prepared hworking hdescribed hfaithful hr htimely
  refine ⟨hworking, hdescribed, hfaithful, hr, htimely, hsame.trans hkeep, hsame'.trans hkeep,
    t', q, hopen, htables, ?_⟩
  have hnote : t'.find? "note" "k" = t.find? "note" "k" := by
    rw [Tables.find?, Tables.find?, hothers "note" (by decide)]
  rw [hnote, Tables.find?_put, if_pos ⟨rfl, rfl⟩]

end Gatehouse.Account
