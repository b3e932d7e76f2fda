import Gatehouse.Proofs.Storage.Document
import Gatehouse.Proofs.Storage.Replacing
import Gatehouse.Storage.Persistent

/-!
# Failures leave storages as they are

A change is first written and then made: where the writing fails, neither the tables nor the
document have changed. So after every call, failed or not, the tables of an open storage are the
ones that its document describes, as long as nobody else touches the document.

## Key results

- `Handle.changing_cases` / `Handle.openWith_cases`: all that can become of a call
- `Persistent.call_error`: a call that fails changes neither the handle nor what is seen of the disk
- `Persistent.inStep_call`: tables and document stay in step
- `failure_changes_nothing`: both, for every disk and for folders in particular
-/

namespace Gatehouse.Storage

/-- The tables that a call writes when it is made on others. -/
def Call.written? (c : Call) (t : Tables) : Option Tables :=
  match c with
  | .put kind key v => some (t.put kind key v)
  | .delete kind key => (t.delete kind key).toOption
  | _ => none

/-- Durable tables are followed by tables that can be read again. -/
theorem Tables.Durable.decode_written {t t' : Tables} (h : t.Durable) {c : Call}
    (hc : ∀ kind key v, c = .put kind key v → Storable v) (hwritten : c.written? t = some t') :
    t'.Durable ∧ Tables.decode t'.encode = .ok t' := by
  have hdurable : t'.Durable := by
    cases c with
    | put kind key v =>
      cases hwritten
      exact h.put (hc kind key v rfl) kind key
    | delete kind key =>
      rw [Call.written?] at hwritten
      cases hdelete : t.delete kind key with
      | error e => simp [hdelete, Except.toOption] at hwritten
      | ok t₁ =>
        simp only [hdelete, Except.toOption, Option.some.injEq] at hwritten
        exact hwritten ▸ h.delete hdelete
    | openStore | closeStore | get | list => cases hwritten
  exact ⟨hdurable, Tables.decode_encode hdurable⟩

/-- A success is what it is under any name for the errors. -/
theorem mapError_eq_ok_iff {α ε ε' : Type} {r : Except ε α} {f : ε → ε'} {a : α} :
    r.mapError f = .ok a ↔ r = .ok a := by
  cases r with
  | error e => constructor <;> rintro ⟨⟩
  | ok b =>
    constructor
    all_goals
      rintro ⟨⟩
      rfl

/-- Whether tables are what a document describes; without a document there are none. -/
def Described (doc : Option (Except SystemError Bytes)) (t : Tables) : Prop :=
  (doc = none ∧ t = .empty) ∨ ∃ bytes, doc = some (.ok bytes) ∧ Tables.decode bytes = .ok t

variable {δ γ : Type} [Disk δ] {view : δ → γ}

namespace Handle

variable {h h' : Handle} {d d' : δ} {t : Tables}

/-- What is loaded is what the document describes. -/
theorem load_eq_ok_iff : load d = .ok t ↔ Described (Disk.document? d) t := by
  unfold load Described
  cases hdoc : Disk.document? d with
  | none => simp [eq_comm]
  | some read =>
    cases read with
    | error e => simp
    | ok bytes => simp [mapError_eq_ok_iff]

/-- An open handle refuses to be opened; a closed one opens with the tables that the prepared disk
    holds, or stays closed. -/
theorem openWith_cases (h : Handle) (d : δ) :
    (h.isOpen = true ∧ h.openWith d = (fail .alreadyOpen, h, d)) ∨
    h.isOpen = false ∧
      ((∃ e, h.openWith d = (fail e, h, (Disk.prepare d).2)) ∨
        ∃ t, Disk.prepare d = (.ok (), (Disk.prepare d).2) ∧ load (Disk.prepare d).2 = .ok t ∧
          h.openWith d = (.ok (), ⟨some t⟩, (Disk.prepare d).2)) := by
  rw [openWith]
  cases hopen : h.isOpen with
  | true => exact .inl ⟨rfl, rfl⟩
  | false =>
    right
    refine ⟨rfl, ?_⟩
    cases Disk.prepare d with
    | mk result d₁ =>
      cases result with
      | error e => exact .inl ⟨.system e, rfl⟩
      | ok _ =>
        dsimp only
        cases load d₁ with
        | error e => exact .inl ⟨e, rfl⟩
        | ok t => exact .inr ⟨t, rfl, rfl, rfl⟩

/-- A change is refused, fails before the document is touched, fails while it is replaced, or
    succeeds. -/
theorem changing_cases (h : Handle) (d : δ) (f : Tables → Except Error Tables) :
    (h.tables = none ∧ h.changing d f = (fail .notOpen, h, d)) ∨
    ∃ t, h.tables = some t ∧
      ((∃ e, f t = .error e ∧ h.changing d f = (fail e, h, d)) ∨
        ∃ t', f t = .ok t' ∧
          ((∃ e d', persist t' d = (.error e, d') ∧ h.changing d f = (fail (.system e), h, d')) ∨
            ∃ d', persist t' d = (.ok (), d') ∧ h.changing d f = (.ok (), ⟨some t'⟩, d'))) := by
  rw [changing]
  cases htables : h.tables with
  | none => exact .inl ⟨rfl, rfl⟩
  | some t =>
    right
    refine ⟨t, rfl, ?_⟩
    dsimp only
    cases hf : f t with
    | error e => exact .inl ⟨e, rfl, rfl⟩
    | ok t' =>
      right
      refine ⟨t', rfl, ?_⟩
      dsimp only
      cases persist t' d with
      | mk result d' =>
        cases result with
        | error e => exact .inl ⟨e, d', rfl, rfl⟩
        | ok _ => exact .inr ⟨d', rfl, rfl⟩

omit [Disk δ] in
/-- A question leaves handle and disk as they are. -/
theorem reading_snd {α : Type} (h : Handle) (d : δ) (f : Tables → Except Error α) :
    (h.reading d f).2 = (h, d) := by
  rw [reading]
  split <;> rfl

end Handle

namespace Persistent

open Handle (load_eq_ok_iff openWith_cases changing_cases reading_snd)

variable {p p' : Persistent δ} {c : Call}

/-! ### Calls that fail -/

/-- A change that fails leaves the handle and whatever is seen of the disk. -/
private theorem changing_error (hkept : KeptUntilRename view) {h h' : Handle} {d d' : δ}
    {f : Tables → Except Error Tables} {failure : Failure}
    (hcall : h.changing d f = (.error failure, h', d')) : h' = h ∧ view d' = view d := by
  obtain ⟨-, heq⟩ | ⟨t, -, ⟨e, -, heq⟩ | ⟨t', -, ⟨e, d₁, hpersist, heq⟩ | ⟨d₁, -, heq⟩⟩⟩ :=
    changing_cases h d f
  all_goals
    rw [heq] at hcall
    cases hcall
  · exact ⟨rfl, rfl⟩
  · exact ⟨rfl, rfl⟩
  · -- The new tables could not be written, and were not made the tables.
    exact ⟨rfl, hkept.replacing_error hpersist⟩

/-- A call that fails changes neither the handle nor what is seen of the disk. -/
theorem call_error (hkept : KeptUntilRename view)
    (hprepare : ∀ d, view (Disk.prepare d).2 = view d) {failure : Failure}
    (hcall : p.call c = (.error failure, p')) :
    p'.handle = p.handle ∧ view p'.disk = view p.disk := by
  obtain ⟨h', d'⟩ := p'
  have hhandle : p.handle.call c p.disk = (.error failure, h', d') := by
    simp only [call, Prod.mk.injEq, Persistent.mk.injEq] at hcall
    exact Prod.ext hcall.1 (Prod.ext hcall.2.1 hcall.2.2)
  cases c with
  | openStore =>
    obtain ⟨-, heq⟩ | ⟨-, ⟨e, heq⟩ | ⟨t, -, -, heq⟩⟩ := openWith_cases p.handle p.disk
    all_goals
      rw [Handle.call, heq] at hhandle
      cases hhandle
    · exact ⟨rfl, rfl⟩
    -- An opening that fails may have made the folder, which the view does not show.
    · exact ⟨rfl, hprepare p.disk⟩
  | closeStore =>
    rw [Handle.call] at hhandle
    split at hhandle <;> cases hhandle
    exact ⟨rfl, rfl⟩
  | put | delete =>
    rw [Handle.call] at hhandle
    exact changing_error hkept hhandle
  | get | list =>
    have hsame := congrArg Prod.snd hhandle
    rw [Handle.call, reading_snd] at hsame
    cases hsame
    exact ⟨rfl, rfl⟩

/-! ### Tables and document -/

/-- Whether the tables of a storage, while it is open, are what its document describes. -/
def InStep (p : Persistent δ) : Prop :=
  ∀ t, p.handle.tables = some t → Described (Disk.document? p.disk) t

/-- After a change the tables are what the document describes, if they decode to themselves. -/
private theorem inStep_changing (hatomic : Atomic δ) (h : p.InStep)
    {f : Tables → Except Error Tables}
    (hround : ∀ t t', p.handle.tables = some t → f t = .ok t' → Tables.decode t'.encode = .ok t') :
    InStep ⟨(p.handle.changing p.disk f).2.1, (p.handle.changing p.disk f).2.2⟩ := by
  obtain ⟨-, heq⟩ | ⟨t, ht, ⟨e, -, heq⟩ | ⟨t', hf, ⟨e, d', hpersist, heq⟩ | ⟨d', hpersist, heq⟩⟩⟩ :=
    changing_cases p.handle p.disk f
  all_goals rw [heq]
  · exact h
  · exact h
  · -- Neither tables nor document have changed.
    intro t₁ ht₁
    rw [hatomic.kept.replacing_error hpersist]
    exact h t₁ ht₁
  · -- Both have, and the document is the one that the new tables were written to.
    intro t₁ ht₁
    cases ht₁
    have hdoc := hatomic.replaced _ _ _ hpersist
    rw [List.flatten_cons, List.flatten_nil, List.append_nil] at hdoc
    exact .inr ⟨_, hdoc, hround t t' ht hf⟩

/-- Tables and document stay in step, whether a call succeeds or fails. -/
theorem inStep_call (hatomic : Atomic δ) (h : p.InStep)
    (hround : ∀ t t', p.handle.tables = some t → c.written? t = some t' →
      Tables.decode t'.encode = .ok t') : InStep (p.call c).2 := by
  cases c with
  | openStore =>
    simp only [call, Handle.call]
    obtain ⟨-, heq⟩ | ⟨hclosed, ⟨e, heq⟩ | ⟨t, -, hload, heq⟩⟩ := openWith_cases p.handle p.disk
    all_goals rw [heq]
    · exact h
    · -- What could not be opened is closed.
      intro t ht
      simp only [Handle.isOpen] at hclosed
      rw [ht] at hclosed
      cases hclosed
    · intro t₁ ht₁
      cases ht₁
      exact load_eq_ok_iff.1 hload
  | closeStore =>
    simp only [call, Handle.call]
    split
    · exact nofun
    · exact h
  | put | delete =>
    simp only [call, Handle.call]
    exact inStep_changing hatomic h fun t t' ht ht' => hround t t' ht (congrArg Except.toOption ht')
  | get | list =>
    simp only [call, Handle.call, reading_snd]
    exact h

/-- The storages that come about by calls, as long as all tables that are written can be read again.
    Others may do to the disk what they like, but leave the document of an open storage alone. -/
inductive Reachable : Persistent δ → Prop
  | fresh (d : δ) : Reachable { disk := d }
  | call {p : Persistent δ} (h : Reachable p) (c : Call)
    (hround : ∀ t t', p.handle.tables = some t → c.written? t = some t' →
      Tables.decode t'.encode = .ok t') : Reachable (p.call c).2
  | elsewhere {p : Persistent δ} (h : Reachable p) (d : δ)
    (hdoc : p.handle.isOpen = true → Disk.document? d = Disk.document? p.disk) :
    Reachable ⟨p.handle, d⟩

/-- A storage that can be reached has the tables of its document while it is open. -/
theorem Reachable.inStep (hatomic : Atomic δ) (h : Reachable p) : p.InStep := by
  -- Induction on how the storage came about; a closed one has no tables to be compared.
  induction h with
  | fresh d => exact nofun
  | call h c hround ih => exact inStep_call hatomic ih hround
  | @elsewhere p h d hdoc ih =>
    intro t ht
    have hopen : p.handle.isOpen = true := Option.isSome_iff_exists.2 ⟨t, ht⟩
    rw [hdoc hopen]
    exact ih t ht

end Persistent

/-- An operation that fails leaves the handle and the document as they were, whichever step it was
    that failed, and at any time the tables of an open storage are what its document describes.
    Folders do what this asks of a disk. -/
theorem failure_changes_nothing :
    (∀ {δ γ : Type} [Disk δ] (view : δ → γ), KeptUntilRename view →
      (∀ d, view (Disk.prepare d).2 = view d) →
      ∀ (p p' : Persistent δ) (c : Call) (failure : Failure), p.call c = (.error failure, p') →
        p'.handle = p.handle ∧ view p'.disk = view p.disk) ∧
    (∀ {δ : Type} [Disk δ], Atomic δ → ∀ p : Persistent δ, p.Reachable →
      ∀ t, p.handle.tables = some t → Described (Disk.document? p.disk) t) ∧
    (∀ (p p' : Persistent Folder) (c : Call) (failure : Failure),
      p.call c = (.error failure, p') →
        p'.handle = p.handle ∧ p'.disk.files = p.disk.files) ∧
    Atomic Folder ∧
    ∀ (t t' : Tables) (c : Call), t.Durable →
      (∀ kind key v, c = .put kind key v → Storable v) → c.written? t = some t' →
        t'.Durable ∧ Tables.decode t'.encode = .ok t' := by
  refine ⟨?_, ?_, ?_, Folder.atomic, ?_⟩
  · intro δ γ _ view hkept hprepare p p' c failure hcall
    exact Persistent.call_error hkept hprepare hcall
  · intro δ _ hatomic p hreachable
    exact hreachable.inStep hatomic
  · intro p p' c failure hcall
    exact Persistent.call_error Folder.keptUntilRename_files Folder.files_prepare hcall
  · intro t t' c hdurable hc hwritten
    exact hdurable.decode_written hc hwritten

/-- Where a folder has taken the place of the temporary file while the storage was open, nothing can
    be put in. -/
theorem failure_changes_nothing_obstructed :
    let nodes : List (Place × FileNode) :=
      [(["db"], .folder), (["db", "keyhold.json"], .file [123, 125])]
    let d : Folder := ⟨⟨.ofList nodes⟩, ⟨[], ["", "db"]⟩⟩
    let blocked : Folder :=
      { d with tree := d.tree.put ["db", "keyhold.json.tmp"] .folder }
    let p : Persistent Folder := ⟨⟨some .empty⟩, blocked⟩
    p.call (.put "account" "a@b.com" .null) = (fail (.system .isADirectory), p) ∧
      p.Reachable ∧ Described (Disk.document? p.disk) .empty ∧
      ∀ p' : Persistent Folder,
        p.call (.put "account" "a@b.com" .null) = (fail (.system .isADirectory), p') →
          p'.handle = p.handle ∧ p'.disk.files ["db", "keyhold.json"] = some [123, 125] := by
  intro nodes d blocked p
  have hopened : Persistent.call .openStore ({ disk := d } : Persistent Folder) =
      (.ok (), ⟨⟨some .empty⟩, d⟩) := by rfl
  have hreachable : p.Reachable := by
    have hopen := (Persistent.Reachable.fresh d).call .openStore nofun
    rw [hopened] at hopen
    exact hopen.elsewhere blocked fun _ => by rfl
  refine ⟨by rfl, hreachable,
    failure_changes_nothing.2.1 Folder.atomic p hreachable .empty rfl, fun p' hcall => ?_⟩
  obtain ⟨hhandle, hfiles⟩ := failure_changes_nothing.2.2.1 p p' _ _ hcall
  exact ⟨hhandle, (congrFun hfiles _).trans (by rfl)⟩

end Gatehouse.Storage
