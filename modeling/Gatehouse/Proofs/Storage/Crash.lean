import Gatehouse.Proofs.Storage.Failure
import Gatehouse.Proofs.Storage.Store

/-!
# Crashes leave whole documents

A process may end between any two of the steps that replace a document. Then the document is the
one that there was or the new one, and a temporary file may be left behind, which the next
replacement empties. So a storage in a document that goes through calls and crashes is like one in
memory that loses nothing: a crash closes it, and the call in which it came was made or was not.

## Key results

- `Persistent.document?_crash`: after a crash, whatever the state, the document is whole
- `Persistent.callIn_nil`: a call is one that writes in one piece
- `Mirrors.callIn` / `Mirrors.crash`: what one call and one crash leave
- `Folder.endures`: folders outlive crashes, and files that they left behind do no harm
- `crashes_leave_whole_documents`: all of this for every history of calls and crashes
-/

namespace Gatehouse.Storage

/-- Cuts bytes into pieces of some lengths, and what is left. -/
def cut : List Nat → Bytes → List Bytes
  | [], bytes => [bytes]
  | n :: ns, bytes => bytes.take n :: cut ns (bytes.drop n)

/-- The pieces are together what was cut. -/
theorem flatten_cut (lengths : List Nat) (bytes : Bytes) : (cut lengths bytes).flatten = bytes := by
  induction lengths generalizing bytes with
  | nil => simp [cut]
  | cons n ns ih => rw [cut, List.flatten_cons, ih, List.take_append_drop]

/-- Besides the pieces, there is one to be created, one to be left, one to be brought to the disk
    and one to be renamed. -/
theorem length_replacing_cut (lengths : List Nat) (bytes : Bytes) :
    (replacing (cut lengths bytes)).length = lengths.length + 4 := by
  have hcut : (cut lengths bytes).length = lengths.length + 1 := by
    induction lengths generalizing bytes with
    | nil => rfl
    | cons n ns ih => rw [cut, List.length_cons, ih, List.length_cons]
  simp [replacing, hcut]

/-- All pieces come from cutting. -/
theorem exists_cut {pieces : List Bytes} (h : pieces ≠ []) :
    ∃ lengths, cut lengths pieces.flatten = pieces := by
  induction pieces with
  | nil => exact absurd rfl h
  | cons piece pieces ih =>
    cases pieces with
    | nil => exact ⟨[], by simp [cut]⟩
    | cons piece' pieces =>
      obtain ⟨lengths, hlengths⟩ := ih nofun
      refine ⟨piece.length :: lengths, ?_⟩
      rw [List.flatten_cons, cut, List.take_left, List.drop_left, hlengths]

/-- What a storage goes through. -/
inductive Event
  /-- A call that writes its tables, if it does, in pieces of some lengths. -/
  | call (c : Call) (lengths : List Nat)
  /-- The process ends in such a call after some of its steps. A new object takes the place of the
      one there was. -/
  | crash (c : Call) (lengths : List Nat) (steps : Nat)

/-- The call that is made, or was begun. -/
def Event.made : Event → Call
  | call c _ => c
  | crash c _ _ => c

/-- What is seen of a storage that goes through events, and what becomes of it. -/
def live {σ : Type} (meet : Event → σ → Sight × σ) : List Event → σ → List Sight × σ
  | [], s => ([], s)
  | e :: es, s => ((meet e s).1 :: (live meet es (meet e s).2).1, (live meet es (meet e s).2).2)

namespace Persistent

variable {δ : Type} [Disk δ]

/-- Changes tables and document, and writes the document in pieces of some lengths. -/
def changeIn (lengths : List Nat) (f : Tables → Except Error Tables) (p : Persistent δ) :
    Result Unit × Persistent δ :=
  match p.handle.tables with
  | none => (fail .notOpen, p)
  | some t =>
    match f t with
    | .error e => (fail e, p)
    | .ok t' =>
      match performAll (replacing (cut lengths t'.encode)) p.disk with
      | (.ok (), d) => (.ok (), ⟨⟨some t'⟩, d⟩)
      | (.error e, d) => (fail (.system e), ⟨p.handle, d⟩)

/-- Makes a call that writes its document in pieces of some lengths. -/
def callIn (lengths : List Nat) (c : Call) (p : Persistent δ) : Result c.Reply × Persistent δ :=
  match c with
  | .put kind key v => p.changeIn lengths fun t => .ok (t.put kind key v)
  | .delete kind key => p.changeIn lengths fun t => t.delete kind key
  | c => p.call c

/-- A change that writes one piece is the change of a handle. -/
theorem changeIn_nil (p : Persistent δ) (f : Tables → Except Error Tables) :
    p.changeIn [] f =
      ((p.handle.changing p.disk f).1,
        ⟨(p.handle.changing p.disk f).2.1, (p.handle.changing p.disk f).2.2⟩) := by
  rw [changeIn, Handle.changing]
  cases p.handle.tables with
  | none => rfl
  | some t =>
    dsimp only
    cases f t with
    | error e => rfl
    | ok t' =>
      simp only [cut, Handle.persist]
      cases performAll (replacing [t'.encode]) p.disk with
      | mk result d => cases result <;> rfl

/-- A call writes its document in one piece. -/
theorem callIn_nil (p : Persistent δ) (c : Call) : p.callIn [] c = p.call c := by
  cases c with
  | put | delete =>
    rw [callIn, changeIn_nil]
    rfl
  | openStore | closeStore | get | list => rfl

/-- What a crash leaves. -/
def crash (c : Call) (lengths : List Nat) (steps : Nat) (p : Persistent δ) : Persistent δ :=
  match p.handle.tables.bind c.written? with
  | none => p.renew
  | some t => ⟨{}, (performAll ((replacing (cut lengths t.encode)).take steps) p.disk).2⟩

/-- Goes through an event. -/
def meet (e : Event) (p : Persistent δ) : Sight × Persistent δ :=
  match e with
  | .call c lengths => (.reply c (p.callIn lengths c).1, (p.callIn lengths c).2)
  | .crash c lengths steps => (.renewed, p.crash c lengths steps)

/-- After a crash the document is the one that there was, or the one of the tables that were being
    written. -/
theorem document?_crash (hatomic : Atomic δ) (p : Persistent δ) (c : Call) (lengths : List Nat)
    (steps : Nat) :
    Disk.document? (p.crash c lengths steps).disk = Disk.document? p.disk ∨
      ∃ t t', p.handle.tables = some t ∧ c.written? t = some t' ∧ lengths.length + 4 ≤ steps ∧
        Disk.document? (p.crash c lengths steps).disk = some (.ok t'.encode) := by
  rw [crash]
  cases hwritten : p.handle.tables.bind c.written? with
  | none => exact .inl rfl
  | some t' =>
    obtain ⟨t, ht, ht'⟩ := Option.bind_eq_some_iff.1 hwritten
    refine (hatomic.breakOff (cut lengths t'.encode) steps p.disk).imp_right ?_
    rintro ⟨hsteps, hdoc⟩
    rw [length_replacing_cut] at hsteps
    rw [flatten_cut] at hdoc
    exact ⟨t, t', ht, ht', hsteps, hdoc⟩

end Persistent

namespace Memory

/-- What a crash leaves of a storage that loses nothing, where the call in which it came was made or
    was not. -/
def crash (c : Call) (made : Bool) (m : Memory) : Memory where
  isOpen := false
  tables := if m.isOpen && made then (c.written? m.tables).getD m.tables else m.tables

/-- Goes through an event. -/
def meet (e : Event) (m : Memory) : Sight × Memory :=
  match e with
  | .call c _ => (.reply c (m.call c).1, (m.call c).2)
  | .crash c lengths steps => (.renewed, m.crash c (lengths.length + 4 ≤ steps))

/-- The tables that an event writes. -/
def written? (e : Event) (m : Memory) : Option Tables :=
  if m.isOpen then e.made.written? m.tables else none

/-- The tables that events write. -/
def written : List Event → Memory → List Tables
  | [], _ => []
  | e :: es, m => (m.written? e).toList ++ written es (m.meet e).2

end Memory

/-! ### Disks that outlive crashes -/

/-- Whether a disk of which something holds does what is asked of it, also after a crash. -/
structure Endures {δ : Type} [Disk δ] (Holds : Option Bytes → δ → Prop) : Prop where
  prepare : ∀ {doc d}, Holds doc d → ∃ d', Disk.prepare d = (.ok (), d') ∧ Holds doc d'
  document? : ∀ {doc d}, Holds doc d → Disk.document? d = doc.map .ok
  replace : ∀ {doc d}, Holds doc d → ∀ pieces,
    ∃ d', performAll (replacing pieces) d = (.ok (), d') ∧ Holds (some pieces.flatten) d'
  breakOff : ∀ {doc d}, Holds doc d → ∀ pieces n, n < (replacing pieces).length →
    Holds doc (performAll ((replacing pieces).take n) d).2

/-- Whether a storage in a document is like one in memory that loses nothing. -/
structure Mirrors {δ : Type} [Disk δ] (Holds : Option Bytes → δ → Prop) (p : Persistent δ)
    (m : Memory) : Prop where
  tables : p.handle.tables = if m.isOpen then some m.tables else none
  document : ∃ doc, Holds doc p.disk ∧ Described (doc.map .ok) m.tables

namespace Mirrors

variable {δ : Type} [Disk δ] {Holds : Option Bytes → δ → Prop} {p : Persistent δ} {m : Memory}

/-- The document is of the tables of the memory. -/
theorem described (hendures : Endures Holds) (h : Mirrors Holds p m) :
    Described (Disk.document? p.disk) m.tables := by
  obtain ⟨doc, hholds, hdescribed⟩ := h.document
  rwa [hendures.document? hholds]

/-- A storage is open as its mirror image is. -/
theorem isOpen (h : Mirrors Holds p m) : p.handle.isOpen = m.isOpen := by
  rw [Handle.isOpen, h.tables]
  cases m.isOpen <;> rfl

/-- A closed storage is opened with the tables that its document describes. -/
theorem openStore (hendures : Endures Holds) (h : Mirrors Holds p m) (hclosed : m.isOpen = false) :
    ∃ d, p.call .openStore = (.ok (), ⟨⟨some m.tables⟩, d⟩) ∧
      Mirrors Holds ⟨⟨some m.tables⟩, d⟩ { m with isOpen := true } := by
  obtain ⟨doc, hholds, hdescribed⟩ := h.document
  obtain ⟨d, hprepare, hholds'⟩ := hendures.prepare hholds
  have hload : Handle.load d = .ok m.tables :=
    Handle.load_eq_ok_iff.2 (by rwa [hendures.document? hholds'])
  refine ⟨d, ?_, rfl, doc, hholds', hdescribed⟩
  have hopen : ¬p.handle.isOpen = true := by rw [h.isOpen, hclosed]; exact Bool.false_ne_true
  simp only [Persistent.call, Handle.call, Handle.openWith, if_neg hopen, hprepare, hload]

/-- A change, whatever its pieces, goes as it does in memory. -/
theorem changeIn (hendures : Endures Holds) (h : Mirrors Holds p m) (lengths : List Nat)
    {f : Tables → Except Error Tables}
    (hround : m.isOpen = true → ∀ t', f m.tables = .ok t' → Tables.decode t'.encode = .ok t') :
    (p.changeIn lengths f).1 = (m.changing f).1 ∧
      Mirrors Holds (p.changeIn lengths f).2 (m.changing f).2 := by
  have htables := h.tables
  rw [Memory.changing, Persistent.changeIn]
  cases hopen : m.isOpen with
  | false =>
    rw [hopen, if_neg Bool.false_ne_true] at htables
    rw [htables]
    exact ⟨rfl, h⟩
  | true =>
    rw [hopen, if_pos rfl] at htables
    rw [htables, if_pos rfl]
    dsimp only
    cases hf : f m.tables with
    | error e => exact ⟨rfl, h⟩
    | ok t' =>
      -- The new document is written, and then the tables are changed.
      obtain ⟨doc, hholds, -⟩ := h.document
      obtain ⟨d, hreplace, hholds'⟩ := hendures.replace hholds (cut lengths t'.encode)
      rw [flatten_cut] at hholds'
      simp only [hreplace]
      exact ⟨trivial, rfl, _, hholds', .inr ⟨t'.encode, rfl, hround hopen t' hf⟩⟩

/-- A question is answered as it is in memory. -/
theorem reading {α : Type} (h : Mirrors Holds p m) (f : Tables → Except Error α) :
    (p.handle.reading p.disk f).1 = (m.reading f).1 ∧
      Mirrors Holds ⟨(p.handle.reading p.disk f).2.1, (p.handle.reading p.disk f).2.2⟩
        (m.reading f).2 := by
  have htables := h.tables
  rw [Memory.reading, Handle.reading]
  cases hopen : m.isOpen with
  | false =>
    rw [hopen, if_neg Bool.false_ne_true] at htables
    rw [htables]
    exact ⟨rfl, h⟩
  | true =>
    rw [hopen, if_pos rfl] at htables
    rw [htables]
    exact ⟨rfl, h⟩

/-- Every call is answered as by the storage in memory. -/
theorem callIn (hendures : Endures Holds) (h : Mirrors Holds p m) (lengths : List Nat) (c : Call)
    (hround : m.isOpen = true → ∀ t', c.written? m.tables = some t' →
      Tables.decode t'.encode = .ok t') :
    (p.callIn lengths c).1 = (m.call c).1 ∧ Mirrors Holds (p.callIn lengths c).2 (m.call c).2 := by
  cases c with
  | openStore =>
    simp only [Persistent.callIn]
    cases hopen : m.isOpen with
    | false =>
      obtain ⟨d, hcall, h'⟩ := h.openStore hendures hopen
      simp only [hcall, Memory.call, hopen]
      exact ⟨rfl, h'⟩
    | true =>
      -- What is open is refused before the disk is touched.
      have hisOpen := h.isOpen.trans hopen
      simp only [Persistent.call, Handle.call, Handle.openWith, hisOpen, Memory.call, hopen,
        if_true]
      exact ⟨trivial, h⟩
  | closeStore =>
    have hisOpen := h.isOpen
    simp only [Persistent.callIn, Persistent.call, Handle.call, hisOpen, Memory.call]
    split
    · exact ⟨rfl, rfl, h.document⟩
    · exact ⟨rfl, h⟩
  | put | delete =>
    rw [Persistent.callIn, Memory.call]
    exact h.changeIn hendures lengths fun hopen t' ht' =>
      hround hopen t' (congrArg Except.toOption ht')
  | get | list =>
    simp only [Persistent.callIn, Persistent.call, Handle.call, Memory.call]
    exact h.reading _

/-- A call in which a crash comes was made, if all of its steps were performed, or was not. -/
theorem crash (hendures : Endures Holds) (h : Mirrors Holds p m) (c : Call) (lengths : List Nat)
    (steps : Nat)
    (hround : m.isOpen = true → ∀ t', c.written? m.tables = some t' →
      Tables.decode t'.encode = .ok t') :
    Mirrors Holds (p.crash c lengths steps) (m.crash c (lengths.length + 4 ≤ steps)) := by
  have htables := h.tables
  obtain ⟨doc, hholds, hdescribed⟩ := h.document
  cases hopen : m.isOpen with
  | false =>
    rw [hopen, if_neg Bool.false_ne_true] at htables
    simp only [Persistent.crash, htables, Memory.crash, hopen, Option.bind_none]
    exact ⟨rfl, doc, hholds, hdescribed⟩
  | true =>
    rw [hopen, if_pos rfl] at htables
    cases hwritten : c.written? m.tables with
    | none =>
      simp only [Persistent.crash, htables, Memory.crash, hwritten, Option.bind_some,
        Option.getD_none, ite_self]
      exact ⟨rfl, doc, hholds, hdescribed⟩
    | some t' =>
      simp only [Persistent.crash, htables, Memory.crash, hopen, hwritten, Option.bind_some,
        Option.getD_some, Bool.true_and, decide_eq_true_eq]
      refine ⟨rfl, ?_⟩
      -- Only if all steps were performed, the new document has taken its place.
      by_cases hsteps : lengths.length + 4 ≤ steps
      · obtain ⟨d, hreplace, hholds'⟩ := hendures.replace hholds (cut lengths t'.encode)
        rw [flatten_cut] at hholds'
        rw [if_pos hsteps, List.take_of_length_le (by rwa [length_replacing_cut]), hreplace]
        exact ⟨_, hholds', .inr ⟨t'.encode, rfl, hround hopen t' hwritten⟩⟩
      · rw [if_neg hsteps]
        refine ⟨doc, hendures.breakOff hholds _ _ ?_, hdescribed⟩
        rw [length_replacing_cut]
        exact Nat.lt_of_not_le hsteps

/-- An event, a crash included, is met as in memory. -/
theorem meet (hendures : Endures Holds) (h : Mirrors Holds p m) (e : Event)
    (hround : ∀ t', m.written? e = some t' → Tables.decode t'.encode = .ok t') :
    (p.meet e).1 = (m.meet e).1 ∧ Mirrors Holds (p.meet e).2 (m.meet e).2 := by
  -- A closed storage writes nothing, so nothing has to be read again.
  have hround' : m.isOpen = true → ∀ t', e.made.written? m.tables = some t' →
      Tables.decode t'.encode = .ok t' := by
    intro hopen t' ht'
    exact hround t' (by rwa [Memory.written?, if_pos hopen])
  cases e with
  | call c lengths =>
    obtain ⟨hreply, hnext⟩ := h.callIn hendures lengths c hround'
    exact ⟨congrArg (Sight.reply c) hreply, hnext⟩
  | crash c lengths steps => exact ⟨rfl, h.crash hendures c lengths steps hround'⟩

/-- All events of a history are met as in memory, if what is written decodes to itself. -/
theorem live (hendures : Endures Holds) (h : Mirrors Holds p m) {es : List Event}
    (hround : ∀ t' ∈ Memory.written es m, Tables.decode t'.encode = .ok t') :
    (live Persistent.meet es p).1 = (live Memory.meet es m).1 ∧
      Mirrors Holds (live Persistent.meet es p).2 (live Memory.meet es m).2 := by
  -- Induction on the events: the next one is answered alike and leaves storages that are alike.
  induction es generalizing p m with
  | nil => exact ⟨rfl, h⟩
  | cons e es ih =>
    obtain ⟨hsight, hnext⟩ := h.meet hendures e fun t' ht' =>
      hround t' (List.mem_append_left _ (by rw [ht']; exact List.mem_singleton_self t'))
    obtain ⟨hsights, hlast⟩ := ih hnext fun t' ht' => hround t' (List.mem_append_right _ ht')
    rw [Storage.live, Storage.live, hsight, hsights]
    exact ⟨rfl, hlast⟩

end Mirrors

/-- Whether callers of a storage in a document are served as by one in memory, and those of a new
    object will be. -/
structure Continues {δ : Type} [Disk δ] (p : Persistent δ) (m : Memory) : Prop where
  tables : p.handle.tables = if m.isOpen then some m.tables else none
  described : Described (Disk.document? p.disk) m.tables
  reopens : ∃ d, p.renew.call .openStore = (.ok (), ⟨⟨some m.tables⟩, d⟩)

/-- A mirror image goes on as the storage that it mirrors, and a new object is opened with its
    tables. -/
theorem Mirrors.continues {δ : Type} [Disk δ] {Holds : Option Bytes → δ → Prop} {p : Persistent δ}
    {m : Memory} (hendures : Endures Holds) (h : Mirrors Holds p m) : Continues p m where
  tables := h.tables
  described := h.described hendures
  reopens := by
    -- A new object is closed, and its document is the one that there is.
    have hrenew : Mirrors Holds p.renew { m with isOpen := false } := ⟨rfl, h.document⟩
    obtain ⟨d, hcall, -⟩ := hrenew.openStore hendures rfl
    exact ⟨d, hcall⟩

/-! ### Tables that can be read again -/

namespace Memory

variable {m : Memory} {e : Event}

/-- A change in memory leaves the tables, or makes of them what it says. -/
theorem tables_changing (m : Memory) (f : Tables → Except Error Tables) :
    (m.changing f).2.tables = m.tables ∨
      m.isOpen = true ∧ f m.tables = .ok (m.changing f).2.tables := by
  rw [changing]
  split
  · next hopen =>
    cases hf : f m.tables with
    | ok t => exact .inr ⟨hopen, rfl⟩
    | error e => exact .inl rfl
  · exact .inl rfl

/-- The tables of a storage are the ones that it had or the ones that were written. -/
theorem tables_meet (m : Memory) (e : Event) :
    (m.meet e).2.tables = m.tables ∨ m.written? e = some (m.meet e).2.tables := by
  cases e with
  | crash c lengths steps =>
    simp only [meet, crash, written?, Event.made]
    -- A crash changes the tables only behind the step that replaces the document.
    split
    · next hmade =>
      rw [if_pos (Bool.and_eq_true_iff.1 hmade).1]
      cases c.written? m.tables with
      | none => exact .inl rfl
      | some t => exact .inr rfl
    · exact .inl rfl
  | call c lengths =>
    cases c with
    | openStore | closeStore =>
      simp only [meet, call]
      split <;> exact .inl rfl
    | put | delete =>
      refine (tables_changing m _).imp_right ?_
      rintro ⟨hopen, hf⟩
      rw [written?, if_pos hopen]
      exact congrArg Except.toOption hf
    | get | list =>
      simp only [meet, call, reading_snd]
      exact .inl trivial

/-- Where durable tables are the first ones and only storable values are put in, all tables that are
    written can be read again. -/
theorem decode_of_mem_written {es : List Event} (h : m.tables.Durable)
    (hes : ∀ e ∈ es, ∀ kind key v, e.made = .put kind key v → Storable v) {t : Tables}
    (ht : t ∈ written es m) : Tables.decode t.encode = .ok t := by
  have hwritten : ∀ {m : Memory} {e : Event}, m.tables.Durable →
      (∀ kind key v, e.made = .put kind key v → Storable v) → ∀ {t}, m.written? e = some t →
        t.Durable ∧ Tables.decode t.encode = .ok t := by
    intro m e h he t ht
    rw [written?] at ht
    split at ht
    · exact h.decode_written he ht
    · cases ht
  -- Induction on the events: the tables stay durable, and durable tables are written.
  induction es generalizing m with
  | nil => cases ht
  | cons e es ih =>
    have he := hes e List.mem_cons_self
    rcases List.mem_append.1 ht with ht | ht
    · exact (hwritten h he (Option.mem_toList.1 ht)).2
    · refine ih ?_ (fun e' he' => hes e' (List.mem_cons_of_mem e he')) ht
      -- The tables are durable whether the event wrote them or not.
      rcases tables_meet m e with hsame | hnew
      · rwa [hsame]
      · exact (hwritten h he hnew).1

end Memory

/-! ### Folders -/

namespace Folder

variable {d : Folder} {upper : Place} {doc : Option Bytes}

/-- Whether a folder can be used again and again, and holds a document or none. -/
def Usable (doc : Option Bytes) (d : Folder) : Prop :=
  (∃ upper, UsableAt upper d) ∧ Disk.document? d = doc.map .ok

/-- A folder can be used still after any step that does not rename. -/
theorem UsableAt.perform (h : UsableAt upper d) {s : Step} (hs : s ≠ .rename) :
    UsableAt upper (Disk.perform s d).2 := by
  obtain hsame | ⟨upper', content, hupper, -, hput⟩ := perform_ne_rename hs d
  · rwa [hsame]
  · -- The temporary file is looked for at one place only.
    cases hupper.symm.trans h.inOrder.temporary
    rw [hput]
    exact (Writing.put h.inOrder h.free h.document content).usableAt

/-- Folders outlive crashes. -/
theorem endures : Endures Usable where
  prepare := by
    rintro doc d ⟨⟨upper, h⟩, hdoc⟩
    refine ⟨d, ?_, ⟨upper, h⟩, hdoc⟩
    simp only [Disk.prepare, FileTree.makeFolders_of_isFolder h.inOrder.there]
  document? h := h.2
  replace := by
    rintro doc d ⟨⟨upper, h⟩, -⟩ pieces
    obtain ⟨d', hreplace, h'⟩ := h.replace pieces
    exact ⟨d', hreplace, ⟨upper, h'.usableAt⟩, document?_of_holds ⟨upper, h'⟩⟩
  breakOff := by
    rintro doc d ⟨⟨upper, h⟩, hdoc⟩ pieces n hn
    refine ⟨⟨upper, ?_⟩, (keptUntilRename_document?.breakOff hn d).trans hdoc⟩
    exact performAll_induction (fun s d' hs hd' => UsableAt.perform hd' hs)
      (fun s => ne_rename_of_mem_take hn) h

/-- Whether a folder is there, holds a document or none, and another document can take its place. -/
structure Working (doc : Option Bytes) (d : Folder) : Prop where
  prepared : Disk.prepare d = (.ok (), d)
  document : Disk.document? d = doc.map .ok
  replaced : (performAll (replacing [[]]) d).1 = .ok ()

/-- A first replacement tells that nothing but a file stands in its way. -/
theorem temporary_of_replaced (h : (performAll (replacing [[]]) d).1 = .ok ())
    (hupper : d.tree.reachUpper d.tempFile = .ok upper) :
    ∀ n, d.tree.node? (upper ++ ["keyhold.json.tmp"]) = some n → ∃ content, n = .file content := by
  have hplace := newPlace_join hupper isName_temporary .isADirectory
  have hreach := reach_join hupper isName_temporary
  have hentry := entry_join hupper isName_temporary
  rintro (_ | content | _) hnode
  · -- A folder cannot be emptied.
    have hcreate : Disk.perform .create d = (.error .isADirectory, d) := by
      simp [Disk.perform, perform, tempFile, FileTree.create, hplace, hnode, bind, Except.bind]
    simp [replacing, performAll, hcreate] at h
  · exact ⟨content, rfl⟩
  · -- A device can be written to but not be brought to the disk.
    rw [hnode] at hreach hentry
    have hcreate : Disk.perform .create d = (.ok (), d) := by
      simp [Disk.perform, perform, tempFile, FileTree.create, hplace, hnode, bind, Except.bind]
    have hwrite : Disk.perform (.write []) d = (.ok (), d) := by
      simp [Disk.perform, perform, tempFile, FileTree.append, hreach, hnode, bind, Except.bind]
    have hsync : Disk.perform .sync d = (.error .invalidArgument, d) := by
      simp [Disk.perform, perform, tempFile, FileTree.sync, hentry]
    simp [replacing, performAll, hcreate, hwrite, hsync] at h

/-- A folder in which a document can be replaced is one that can be used. -/
theorem Working.usable (h : Working doc d) : Usable doc d := by
  obtain ⟨upper, htemporary, hdocument⟩ := reachUpper_of_replaced h.replaced
  refine ⟨⟨upper, ⟨?_, htemporary, hdocument⟩, temporary_of_replaced h.replaced htemporary, ?_⟩,
    h.document⟩
  · have hprepared := h.prepared
    simp only [Disk.prepare, Prod.mk.injEq] at hprepared
    exact FileTree.isFolder_of_makeFolders
      (Prod.ext hprepared.1 (congrArg Folder.tree hprepared.2))
  · intro hfolder
    have hdoc := h.document
    rw [document?_eq hdocument, hfolder] at hdoc
    cases doc <;> cases hdoc

end Folder

/-- Whatever the state of a storage, a crash leaves its document or the one that was being written.
    And through every history of calls and crashes a storage in a document answers as one in memory
    that loses nothing: its document is of the same tables at any time, and a new object is opened
    with these. Folders do what this asks of a disk, with whatever is left of temporary files. -/
theorem crashes_leave_whole_documents :
    (∀ {δ : Type} [Disk δ], Atomic δ →
      ∀ (p : Persistent δ) (c : Call) (lengths : List Nat) (steps : Nat),
        Disk.document? (p.crash c lengths steps).disk = Disk.document? p.disk ∨
        ∃ t t', p.handle.tables = some t ∧ c.written? t = some t' ∧ lengths.length + 4 ≤ steps ∧
          Disk.document? (p.crash c lengths steps).disk = some (.ok t'.encode)) ∧
    (∀ {δ : Type} [Disk δ] (Holds : Option Bytes → δ → Prop), Endures Holds →
      ∀ (doc : Option Bytes) (d : δ) (t : Tables), Holds doc d → Described (doc.map .ok) t →
      ∀ es : List Event,
        (∀ t' ∈ Memory.written es ⟨true, t⟩, Tables.decode t'.encode = .ok t') →
        (live Persistent.meet es ⟨⟨some t⟩, d⟩).1 = (live Memory.meet es ⟨true, t⟩).1 ∧
        Continues (live Persistent.meet es ⟨⟨some t⟩, d⟩).2 (live Memory.meet es ⟨true, t⟩).2) ∧
    ((∀ {δ : Type} [Disk δ] (p : Persistent δ) (c : Call), p.callIn [] c = p.call c) ∧
      ∀ pieces : List Bytes, pieces ≠ [] → ∃ lengths, cut lengths pieces.flatten = pieces) ∧
    (Atomic Folder ∧ Endures Folder.Usable ∧
      ∀ (doc : Option Bytes) (d : Folder), d.Working doc → d.Usable doc) ∧
    ∀ (es : List Event) (t : Tables), t.Durable →
      (∀ e ∈ es, ∀ kind key v, e.made = .put kind key v → Storable v) →
      ∀ t' ∈ Memory.written es ⟨true, t⟩, Tables.decode t'.encode = .ok t' := by
  refine ⟨?_, ?_, ⟨fun p c => p.callIn_nil c, fun pieces => exists_cut⟩,
    ⟨Folder.atomic, Folder.endures, fun doc d h => h.usable⟩, ?_⟩
  · intro δ _ hatomic p c lengths steps
    exact Persistent.document?_crash hatomic p c lengths steps
  · intro δ _ Holds hendures doc d t hholds hdescribed es hround
    have hmirrors : Mirrors Holds ⟨⟨some t⟩, d⟩ ⟨true, t⟩ := ⟨rfl, doc, hholds, hdescribed⟩
    obtain ⟨hsights, hlast⟩ := hmirrors.live hendures hround
    exact ⟨hsights, hlast.continues hendures⟩
  · intro es t hdurable hes t' ht'
    exact Memory.decode_of_mem_written hdurable hes ht'

/-- A first crash leaves the document, and a piece of the next one in the temporary file; a second
    one comes when the document was replaced but the call has not returned. A record is deleted. The
    deletion of another is lost when the process ends before the document is replaced, and is made
    when it ends behind that. -/
theorem crashes_leave_whole_documents_accounts :
    let nodes : List (Place × FileNode) :=
      [(["db"], .folder), (["db", "keyhold.json"], .file [123, 125]),
        (["db", "keyhold.json.tmp"], .file [91])]
    let d : Folder := ⟨⟨.ofList nodes⟩, ⟨[], ["", "db"]⟩⟩
    let es : List Event :=
      [.crash (.put "account" "a@b.com" .null) [1] 2, .call .openStore [],
        .call (.put "account" "c@d.com" .null) [2], .crash (.put "account" "e@f.com" .null) [] 9,
        .call .openStore [], .call (.delete "account" "c@d.com") [3],
        .crash (.delete "account" "e@f.com") [] 3, .call .openStore [], .call (.list "account") [],
        .crash (.delete "account" "e@f.com") [] 4, .call .openStore [], .call (.list "account") []]
    d.Working (some [123, 125]) ∧ Described (some (.ok [123, 125])) .empty ∧
      (live Persistent.meet es ⟨⟨some .empty⟩, d⟩).1 =
        [.renewed, .reply .openStore (.ok ()),
          .reply (.put "account" "c@d.com" .null) (.ok ()), .renewed,
          .reply .openStore (.ok ()), .reply (.delete "account" "c@d.com") (.ok ()),
          .renewed, .reply .openStore (.ok ()), .reply (.list "account") (.ok ["e@f.com"]),
          .renewed, .reply .openStore (.ok ()), .reply (.list "account") (.ok [])] ∧
      Continues (live Persistent.meet es ⟨⟨some .empty⟩, d⟩).2
        (live Memory.meet es ⟨true, .empty⟩).2 := by
  intro nodes d es
  have hworking : d.Working (some [123, 125]) := ⟨by rfl, by rfl, by rfl⟩
  have hdescribed : Described (some (.ok [123, 125])) .empty := .inr ⟨_, rfl, by rfl⟩
  have hes : ∀ e ∈ es, ∀ kind key v, e.made = .put kind key v → Storable v := by
    intro e he kind key v hmade
    have hv : v = .null := by
      simp only [es, List.mem_cons, List.not_mem_nil, or_false] at he
      rcases he with rfl | rfl | rfl | rfl | rfl | rfl | rfl | rfl | rfl | rfl | rfl | rfl <;>
        cases hmade <;> rfl
    rw [hv]
    exact ⟨.null, by decide⟩
  obtain ⟨-, hlive, -, ⟨-, hendures, husable⟩, hround⟩ := crashes_leave_whole_documents
  obtain ⟨hsights, hcontinues⟩ := hlive Folder.Usable hendures _ d .empty (husable _ d hworking)
    hdescribed es (hround es .empty Tables.durable_empty hes)
  exact ⟨hworking, hdescribed, hsights.trans (by rfl), hcontinues⟩

end Gatehouse.Storage
