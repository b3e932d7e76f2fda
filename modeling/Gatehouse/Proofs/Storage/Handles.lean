import Gatehouse.Proofs.Storage.Exchange
import Gatehouse.Proofs.Storage.Failure
import Mathlib.Logic.Function.Basic

/-!
# Several handles on one document

A handle keeps the tables that it read when it was opened, and writes all of them with each change.
So a change by one handle is undone by the next change of another that was opened before it, and by
nothing else: what a new handle reads is the last change to each pair, as long as nobody wrote
tables that were read before it.

## Key results

- `Handle.move`: all that a call can do to a handle and its disk
- `Knows.move`: a change that is known where others are made is not undone
- `acknowledged_changes_survive`: acknowledged changes are found by a new handle
- `acknowledged_change_undone`: without the condition they may not be
-/

namespace Gatehouse.Storage

variable {ι δ : Type} [Disk δ]

/-- Handles on the document of one disk. -/
structure Handles (ι δ : Type) where
  handles : ι → Handle := fun _ => {}
  disk : δ

namespace Handles

variable [DecidableEq ι]

/-- Makes a call on one of the handles. -/
def call (i : ι) (c : Call) (H : Handles ι δ) : Result c.Reply × Handles ι δ :=
  let (r, h, d) := (H.handles i).call c H.disk
  (r, ⟨Function.update H.handles i h, d⟩)

/-- Whether handles come from others by calls, with what passed in these. -/
inductive Runs : Handles ι δ → List (ι × Exchange) → Handles ι δ → Prop
  | nil (H : Handles ι δ) : Runs H [] H
  | call {H H' H'' : Handles ι δ} {i : ι} {c : Call} {r : Result c.Reply}
    {log : List (ι × Exchange)} (first : H.call i c = (r, H')) (rest : Runs H' log H'') :
    Runs H ((i, ⟨c, r⟩) :: log) H''

end Handles

/-- Whether a new handle can be opened and finds a record, or none, under a key of a kind. -/
def Finds (d : δ) (kind key : String) (v? : Option Value) : Prop :=
  ∃ p, Persistent.call .openStore ({ disk := d } : Persistent δ) = (.ok (), p) ∧
    (p.call (.get kind key)).1 = match v? with
      | some v => .ok v
      | none => fail (.notFound kind key)

/-- A new handle finds what is in the tables that it reads. -/
theorem finds_iff {d d' : δ} {t : Tables} {kind key : String} {v? : Option Value}
    (hprepare : Disk.prepare d = (.ok (), d')) (hload : Handle.load d' = .ok t) :
    Finds d kind key v? ↔ t.find? kind key = v? := by
  have hopen : Persistent.call .openStore ({ disk := d } : Persistent δ) =
      (.ok (), ⟨⟨some t⟩, d'⟩) := by
    simp only [Persistent.call, Handle.call, Handle.openWith, Handle.isOpen, Option.isSome_none,
      Bool.false_eq_true, if_false, hprepare, hload]
  have hget : ∀ p, Persistent.call .openStore ({ disk := d } : Persistent δ) = (.ok (), p) →
      (p.call (.get kind key)).1 = match t.find? kind key with
        | some v => .ok v
        | none => fail (.notFound kind key) := by
    intro p hp
    cases hopen.symm.trans hp
    simp only [Persistent.call, Handle.call, Handle.reading, Tables.get]
    cases t.find? kind key <;> rfl
  constructor
  · rintro ⟨p, hp, hfound⟩
    rw [hget p hp] at hfound
    -- The reply tells the two options apart, so they are compared case by case.
    generalize t.find? kind key = w? at hfound ⊢
    rcases w? with _ | w <;> rcases v? with _ | v
    · rfl
    · cases hfound
    · cases hfound
    · cases hfound
      rfl
  · rintro rfl
    exact ⟨_, hopen, hget _ hopen⟩

/-! ### What a call can do -/

namespace Handle

/-- What an exchange does to a handle and its disk. Whatever neither opens the handle nor changes
    its tables leaves the tables or drops them, and leaves the document. -/
inductive Move (h : Handle) (d : δ) : Exchange → Handle → δ → Prop
  | opened {d' : δ} {t : Tables} (prepared : Disk.prepare d = (.ok (), d'))
    (loaded : load d' = .ok t) : Move h d ⟨.openStore, .ok ()⟩ ⟨some t⟩ d'
  | changed {e : Exchange} {t t' : Tables} {d' : δ} (tables : h.tables = some t)
    (written : e.call.written? t = some t') (persisted : persist t' d = (.ok (), d'))
    (change : e.change? ≠ none) : Move h d e ⟨some t'⟩ d'
  | idle {e : Exchange} {h' : Handle} {d' : δ} (notOpened : e.opens = false)
    (unchanged : e.change? = none) (handle : h' = h ∨ h'.tables = none)
    (disk : d' = d ∨ d' = (Disk.prepare d).2 ∨
      ∃ t t' e, h.tables = some t ∧ persist t' d = (.error e, d')) : Move h d e h' d'

/-- A change that succeeds is written to the document, and one that fails moves nothing. -/
theorem move_changing (h : Handle) (d : δ) {f : Tables → Except Error Tables}
    (e : Result Unit → Exchange)
    (hwritten : ∀ t, (e (.ok ())).call.written? t = (f t).toOption)
    (hchange : (e (.ok ())).change? ≠ none)
    (hfailed : ∀ x, (e (.error x)).opens = false ∧ (e (.error x)).change? = none) :
    Move h d (e (h.changing d f).1) (h.changing d f).2.1 (h.changing d f).2.2 := by
  obtain ⟨-, heq⟩ | ⟨t, ht, ⟨e, -, heq⟩ | ⟨t', ht', ⟨e, d', hpersist, heq⟩ |
    ⟨d', hpersist, heq⟩⟩⟩ := h.changing_cases d f
  all_goals rw [heq]
  · exact .idle (hfailed _).1 (hfailed _).2 (.inl rfl) (.inl rfl)
  · exact .idle (hfailed _).1 (hfailed _).2 (.inl rfl) (.inl rfl)
  · exact .idle (hfailed _).1 (hfailed _).2 (.inl rfl) (.inr (.inr ⟨t, t', e, ht, hpersist⟩))
  · refine .changed ht ?_ hpersist hchange
    rw [hwritten, ht']
    rfl

/-- Every call moves handle and document as its exchange tells. -/
theorem move (h : Handle) (d : δ) (c : Call) :
    Move h d ⟨c, (h.call c d).1⟩ (h.call c d).2.1 (h.call c d).2.2 := by
  cases c with
  | openStore =>
    rw [call]
    obtain ⟨-, heq⟩ | ⟨-, ⟨e, heq⟩ | ⟨t, hprepare, hload, heq⟩⟩ := h.openWith_cases d
    all_goals rw [heq]
    · exact .idle rfl rfl (.inl rfl) (.inl rfl)
    · exact .idle rfl rfl (.inl rfl) (.inr (.inl rfl))
    · exact .opened hprepare hload
  | closeStore =>
    rw [call]
    split
    · exact .idle rfl rfl (.inr rfl) (.inl rfl)
    · exact .idle rfl rfl (.inl rfl) (.inl rfl)
  | put kind key v =>
    exact move_changing h d (fun r => ⟨.put kind key v, r⟩) (fun _ => rfl) (by rintro ⟨⟩)
      fun _ => ⟨rfl, rfl⟩
  | delete kind key =>
    exact move_changing h d (fun r => ⟨.delete kind key, r⟩) (fun _ => rfl) (by rintro ⟨⟩)
      fun _ => ⟨rfl, rfl⟩
  | get kind key =>
    rw [call, reading_snd]
    exact .idle rfl rfl (.inl rfl) (.inl rfl)
  | list kind =>
    rw [call, reading_snd]
    exact .idle rfl rfl (.inl rfl) (.inl rfl)

end Handle

/-- A call that puts a record in changes just this record. -/
theorem change?_of_put {e : Exchange} {kind key : String} {v : Value}
    (hput : e.call = .put kind key v) (hchange : e.change? ≠ none) :
    e.change? = some (kind, key, some v) := by
  obtain ⟨c, r⟩ := e
  cases hput
  cases r with
  | ok => rfl
  | error => exact absurd rfl hchange

/-! ### What a disk has to do -/

/-- Whether a disk that was prepared once stays prepared: to do it again succeeds and leaves the
    document. -/
structure Lasting (Ready : δ → Prop) : Prop where
  prepared : ∀ {d d'}, Disk.prepare d = (.ok (), d') → Ready d'
  prepare : ∀ {d}, Ready d →
    ∃ d', Disk.prepare d = (.ok (), d') ∧ Disk.document? d' = Disk.document? d
  perform : ∀ {d} s, Ready d → Ready (Disk.perform s d).2

/-- Whether a disk can be prepared, and then holds durable tables or nothing that can be read. -/
def Sane (d : δ) : Prop :=
  ∃ d', Disk.prepare d = (.ok (), d') ∧ ∀ t, Handle.load d' = .ok t → t.Durable

/-- Equal documents are loaded alike. -/
theorem load_congr {d d' : δ} (h : Disk.document? d' = Disk.document? d) :
    Handle.load d' = Handle.load d := by
  unfold Handle.load
  rw [h]

/-- Durable tables that were written are loaded again. -/
theorem load_of_encode {d : δ} {t : Tables} (h : t.Durable)
    (hdoc : Disk.document? d = some (.ok t.encode)) : Handle.load d = .ok t := by
  rw [Handle.load, hdoc]
  dsimp only
  rw [Tables.decode_encode h]
  rfl

namespace Lasting

variable {Ready : δ → Prop} {d d' : δ} {t : Tables}

/-- What lasts through each step lasts through all of them. -/
theorem performAll (h : Lasting Ready) (ss : List Step) (hready : Ready d) :
    Ready (Storage.performAll ss d).2 := by
  induction ss generalizing d with
  | nil => exact hready
  | cons s ss ih =>
    have hfirst := h.perform s hready
    rw [Storage.performAll]
    split
    · next d₁ h₁ =>
      rw [h₁] at hfirst
      exact ih hfirst
    · next e d₁ h₁ =>
      rw [h₁] at hfirst
      exact hfirst

/-- What lasts through each step lasts through a replacement, whether or not it succeeds. -/
theorem persist (h : Lasting Ready) (hready : Ready d) {r : Except SystemError Unit}
    (hpersist : Handle.persist t d = (r, d')) : Ready d' := by
  have hall := h.performAll (replacing [t.encode]) hready
  rw [Handle.persist] at hpersist
  rwa [hpersist] at hall

/-- A disk that is ready is sane if whatever can be loaded from it is durable. -/
theorem sane (h : Lasting Ready) (hready : Ready d)
    (hdurable : ∀ t, Handle.load d = .ok t → t.Durable) : Sane d := by
  obtain ⟨d', hprepare, hdoc⟩ := h.prepare hready
  refine ⟨d', hprepare, fun t ht => hdurable t ?_⟩
  rwa [← load_congr hdoc]

end Lasting

/-- A replacement that succeeds leaves the tables in the document. -/
theorem Atomic.persist_ok (h : Atomic δ) {d d' : δ} {t : Tables}
    (hpersist : Handle.persist t d = (.ok (), d')) :
    Disk.document? d' = some (.ok t.encode) := by
  simpa using h.replaced d d' _ hpersist

/-! ### Handles that are in order -/

namespace Handles

variable {Ready : δ → Prop} {H : Handles ι δ} {i : ι} {e : Exchange} {h : Handle} {d : δ}
  {t : Tables}

/-- Whether all tables are durable, and handles are open on a prepared disk only. -/
structure Sound (Ready : δ → Prop) (H : Handles ι δ) : Prop where
  disk : Sane H.disk
  tables : ∀ i t, (H.handles i).tables = some t → t.Durable ∧ Ready H.disk

/-- Handles that are all closed are sound on a sane disk. -/
theorem Sound.start (hd : Sane d) : Sound Ready ({ disk := d } : Handles ι δ) := ⟨hd, nofun⟩

/-- Preparing the disk for one of the handles leaves it sane and ready. -/
theorem Sound.prepare (hlasting : Lasting Ready) (hH : Sound Ready H) :
    Sane (Disk.prepare H.disk).2 ∧ Ready (Disk.prepare H.disk).2 := by
  obtain ⟨d', hprepare, hdurable⟩ := hH.disk
  have hready := hlasting.prepared hprepare
  rw [hprepare]
  exact ⟨hlasting.sane hready hdurable, hready⟩

variable [DecidableEq ι]

omit [Disk δ] in
/-- The handle that moved is open with its new tables, the others with their old ones. -/
theorem tables_update {j : ι} (ht : (Function.update H.handles i h j).tables = some t) :
    j = i ∧ h.tables = some t ∨ j ≠ i ∧ (H.handles j).tables = some t := by
  rcases eq_or_ne j i with rfl | hne
  · rw [Function.update_self] at ht
    exact .inl ⟨rfl, ht⟩
  · rw [Function.update_of_ne hne] at ht
    exact .inr ⟨hne, ht⟩

omit [Disk δ] in
/-- Where a handle did not get new tables, all that are open have their old ones. -/
theorem tables_update_of_idle (hidle : h = H.handles i ∨ h.tables = none) {j : ι}
    (ht : (Function.update H.handles i h j).tables = some t) : (H.handles j).tables = some t := by
  rcases tables_update ht with ⟨rfl, hnew⟩ | ⟨-, hold⟩
  · rcases hidle with rfl | hnone
    · exact hnew
    · rw [hnone] at hnew
      cases hnew
  · exact hold

/-- A call moves one of the handles and the disk. -/
theorem move_of_call {c : Call} {r : Result c.Reply} {H' : Handles ι δ}
    (hcall : H.call i c = (r, H')) :
    ∃ h d, H' = ⟨Function.update H.handles i h, d⟩ ∧ (H.handles i).Move H.disk ⟨c, r⟩ h d := by
  cases hcall
  exact ⟨_, _, rfl, (H.handles i).move H.disk c⟩

/-- A closed handle is opened with the tables of the document. -/
theorem call_openStore (hclosed : (H.handles i).tables = none)
    (hprepare : Disk.prepare H.disk = (.ok (), d)) (hload : Handle.load d = .ok t) :
    H.call i .openStore = (.ok (), ⟨Function.update H.handles i ⟨some t⟩, d⟩) := by
  simp only [call, Handle.call, Handle.openWith, Handle.isOpen, hclosed, Option.isSome_none,
    Bool.false_eq_true, if_false, hprepare, hload]

/-- A record is put into the tables of one handle and, with these, into the document. -/
theorem call_put {kind key : String} {v : Value} (hopen : (H.handles i).tables = some t)
    (hpersist : Handle.persist (t.put kind key v) H.disk = (.ok (), d)) :
    H.call i (.put kind key v) =
      (.ok (), ⟨Function.update H.handles i ⟨some (t.put kind key v)⟩, d⟩) := by
  simp only [call, Handle.call, Handle.changing, hopen, hpersist]

/-- No move brings handles out of order. -/
theorem Sound.move (hatomic : Atomic δ) (hlasting : Lasting Ready) (hH : Sound Ready H)
    (hmove : (H.handles i).Move H.disk e h d)
    (he : ∀ kind key v, e.change? = some (kind, key, some v) → Storable v) :
    Sound Ready ⟨Function.update H.handles i h, d⟩ := by
  obtain ⟨hsane, htables⟩ := hH
  cases hmove with
  | @opened d t prepared loaded =>
    have hprepare := Sound.prepare hlasting ⟨hsane, htables⟩
    rw [prepared] at hprepare
    refine ⟨hprepare.1, fun j t₁ ht₁ => ⟨?_, hprepare.2⟩⟩
    -- The tables are those of the handle that moved or of one that stayed as it was.
    rcases tables_update ht₁ with ⟨-, hnew⟩ | ⟨-, hold⟩
    · obtain ⟨d₁, hprepared, hdurable⟩ := hsane
      cases hprepared.symm.trans prepared
      cases hnew
      exact hdurable t loaded
    · exact (htables j t₁ hold).1
  | @changed e t t' d isOpen written persisted change =>
    obtain ⟨hdurable, hready⟩ := htables i t isOpen
    have hready' := hlasting.persist hready persisted
    obtain ⟨hdurable', -⟩ := hdurable.decode_written
      (fun _ _ _ hput => he _ _ _ (change?_of_put hput change)) written
    have hload := load_of_encode hdurable' (hatomic.persist_ok persisted)
    refine ⟨hlasting.sane hready' fun t₁ ht₁ => ?_, fun j t₁ ht₁ => ⟨?_, hready'⟩⟩
    · cases hload.symm.trans ht₁
      exact hdurable'
    · rcases tables_update ht₁ with ⟨-, hnew⟩ | ⟨-, hold⟩
      · cases hnew
        exact hdurable'
      · exact (htables j t₁ hold).1
  | idle notOpened unchanged handle disk =>
    have hsame : Sane d ∧ (Ready H.disk → Ready d) := by
      rcases disk with rfl | rfl | ⟨t, t', e', isOpen, persisted⟩
      · exact ⟨hsane, id⟩
      · exact (Sound.prepare hlasting ⟨hsane, htables⟩).imp_right fun h _ => h
      · -- What could not be written has left the document.
        have hready' := hlasting.persist (htables i t isOpen).2 persisted
        have hdoc := hatomic.kept.replacing_error persisted
        obtain ⟨d₁, hprepare, hdurable⟩ := hsane
        obtain ⟨d₂, hprepare₂, hdoc₂⟩ := hlasting.prepare (htables i t isOpen).2
        cases hprepare.symm.trans hprepare₂
        refine ⟨hlasting.sane hready' fun t₁ ht₁ => hdurable t₁ ?_, fun _ => hready'⟩
        rwa [load_congr (hdoc₂.trans hdoc.symm)]
    exact ⟨hsame.1, fun j t₁ ht₁ =>
      (htables j t₁ (tables_update_of_idle handle ht₁)).imp_right hsame.2⟩

/-! ### Handles that know of a change -/

omit [DecidableEq ι] in
/-- A successful change is made to the tables that a handle has. -/
theorem find?_of_change {t' : Tables} {kind key : String} {v? : Option Value}
    (hwritten : e.call.written? t = some t') (hchange : e.change? = some (kind, key, v?))
    (kind' key' : String) :
    t'.find? kind' key' = if kind' = kind ∧ key' = key then v? else t.find? kind' key' := by
  obtain ⟨c, r⟩ := e
  cases c with
  | put kind₁ key₁ v =>
    cases r <;> cases hchange
    cases hwritten
    exact t.find?_put _ _ _ _ _
  | delete kind₁ key₁ =>
    cases r <;> cases hchange
    rw [Call.written?] at hwritten
    cases hdelete : t.delete kind key with
    | error e => simp [hdelete, Except.toOption] at hwritten
    | ok t₁ =>
      simp only [hdelete, Except.toOption, Option.some.injEq] at hwritten
      exact hwritten ▸ Tables.find?_delete hdelete kind' key'
  | openStore | closeStore | get | list => cases hchange

/-- Whether a change to a pair is found in the document, and in the tables of handles that know of
    it while they are open. -/
structure Knows (Ready : δ → Prop) (kind key : String) (v? : Option Value) (informed : ι → Prop)
    (H : Handles ι δ) : Prop where
  ready : Ready H.disk
  document : ∃ t : Tables, t.Durable ∧ Disk.document? H.disk = some (.ok t.encode) ∧
    t.find? kind key = v?
  durable : ∀ i t, (H.handles i).tables = some t → t.Durable
  informed : ∀ i t, (H.handles i).tables = some t → informed i → t.find? kind key = v?

variable {kind key : String} {v? : Option Value} {informed : ι → Prop}

/-- Who makes a change knows of it. -/
theorem Sound.knows (hatomic : Atomic δ) (hlasting : Lasting Ready) (hH : Sound Ready H)
    (hmove : (H.handles i).Move H.disk e h d)
    (he : ∀ kind key v, e.change? = some (kind, key, some v) → Storable v)
    (hchange : e.change? = some (kind, key, v?)) :
    Knows Ready kind key v? (· = i) ⟨Function.update H.handles i h, d⟩ := by
  have hsound := hH.move hatomic hlasting hmove he
  cases hmove with
  | opened => cases hchange
  | idle notOpened unchanged =>
    rw [unchanged] at hchange
    cases hchange
  | @changed e t t' d isOpen written persisted change =>
    have hfind : t'.find? kind key = v? := by
      rw [find?_of_change written hchange, if_pos ⟨rfl, rfl⟩]
    have hnew : ((Function.update H.handles i ⟨some t'⟩) i).tables = some t' := by
      rw [Function.update_self]
    obtain ⟨hdurable, hready⟩ := hsound.tables i t' hnew
    refine ⟨hready, ⟨t', hdurable, hatomic.persist_ok persisted, hfind⟩,
      fun j t₁ ht₁ => (hsound.tables j t₁ ht₁).1, ?_⟩
    rintro j t₁ ht₁ rfl
    cases hnew.symm.trans ht₁
    exact hfind

/-- A change is not undone by moves to other pairs, if those who change something know of it;
    whoever opens a handle comes to know of it. -/
theorem Knows.move (hatomic : Atomic δ) (hlasting : Lasting Ready)
    (hH : Knows Ready kind key v? informed H) (hmove : (H.handles i).Move H.disk e h d)
    (he : ∀ kind key v, e.change? = some (kind, key, some v) → Storable v)
    (hother : ∀ v', e.change? ≠ some (kind, key, v')) (hinformed : e.change? ≠ none → informed i) :
    Knows Ready kind key v? (fun j => informed j ∨ j = i ∧ e.opens = true)
      ⟨Function.update H.handles i h, d⟩ := by
  obtain ⟨hready, ⟨t₀, hdurable₀, hdoc₀, hfind₀⟩, hdurable, hknown⟩ := hH
  cases hmove with
  | @opened d t prepared loaded =>
    obtain ⟨d₁, hprepare, hdoc₁⟩ := hlasting.prepare hready
    cases hprepare.symm.trans prepared
    -- What was read are the tables in which the change is found.
    have hload := load_of_encode hdurable₀ (hdoc₁.trans hdoc₀)
    cases hload.symm.trans loaded
    refine ⟨hlasting.prepared prepared, ⟨t₀, hdurable₀, hdoc₁.trans hdoc₀, hfind₀⟩,
      fun j t₁ ht₁ => ?_, fun j t₁ ht₁ hj => ?_⟩
    · rcases tables_update ht₁ with ⟨-, hnew⟩ | ⟨-, hold⟩
      · cases hnew
        exact hdurable₀
      · exact hdurable j t₁ hold
    · rcases tables_update ht₁ with ⟨-, hnew⟩ | ⟨hne, hold⟩
      · cases hnew
        exact hfind₀
      · exact hknown j t₁ hold (hj.resolve_right fun hji => hne hji.1)
  | @changed e t t' d isOpen written persisted change =>
    obtain ⟨hdurable', -⟩ := (hdurable i t isOpen).decode_written
      (fun _ _ _ hput => he _ _ _ (change?_of_put hput change)) written
    -- The pair is another one, so the new tables have the change if the old ones have it.
    have hfind' : t'.find? kind key = v? := by
      obtain ⟨⟨kind', key', v'⟩, hchange⟩ := Option.ne_none_iff_exists'.1 change
      rw [find?_of_change written hchange, if_neg]
      · exact hknown i t isOpen (hinformed change)
      · rintro ⟨rfl, rfl⟩
        exact hother v' hchange
    refine ⟨hlasting.persist hready persisted,
      ⟨t', hdurable', hatomic.persist_ok persisted, hfind'⟩, fun j t₁ ht₁ => ?_,
      fun j t₁ ht₁ hj => ?_⟩
    · rcases tables_update ht₁ with ⟨-, hnew⟩ | ⟨-, hold⟩
      · cases hnew
        exact hdurable'
      · exact hdurable j t₁ hold
    · rcases tables_update ht₁ with ⟨-, hnew⟩ | ⟨hne, hold⟩
      · cases hnew
        exact hfind'
      · exact hknown j t₁ hold (hj.resolve_right fun hji => hne hji.1)
  | idle notOpened unchanged handle disk =>
    have hsame : Ready d ∧ Disk.document? d = Disk.document? H.disk := by
      rcases disk with rfl | rfl | ⟨t, t', e', isOpen, persisted⟩
      · exact ⟨hready, rfl⟩
      · obtain ⟨d₁, hprepare, hdoc₁⟩ := hlasting.prepare hready
        rw [hprepare]
        exact ⟨hlasting.prepared hprepare, hdoc₁⟩
      · exact ⟨hlasting.persist hready persisted, hatomic.kept.replacing_error persisted⟩
    refine ⟨hsame.1, ⟨t₀, hdurable₀, hsame.2.trans hdoc₀, hfind₀⟩, fun j t₁ ht₁ => ?_,
      fun j t₁ ht₁ hj => ?_⟩
    · exact hdurable j t₁ (tables_update_of_idle handle ht₁)
    · refine hknown j t₁ (tables_update_of_idle handle ht₁) (hj.resolve_right ?_)
      rintro ⟨-, hopens⟩
      rw [notOpened] at hopens
      cases hopens

/-- A change that is known is still known after others, if those who make them know of it. -/
theorem Knows.runs (hatomic : Atomic δ) (hlasting : Lasting Ready)
    {log : List (ι × Exchange)} {H' : Handles ι δ} (hruns : Runs H log H')
    (hH : Knows Ready kind key v? informed H)
    (hlog : ∀ e ∈ log, ∀ kind key v, e.2.change? = some (kind, key, some v) → Storable v)
    (hother : ∀ e ∈ log, ∀ v', e.2.change? ≠ some (kind, key, v'))
    (hinformed : ∀ front j e back, log = front ++ (j, e) :: back → e.change? ≠ none →
      informed j ∨ (j, ⟨.openStore, .ok ()⟩) ∈ front) :
    ∃ informed', Knows Ready kind key v? informed' H' := by
  -- Induction on the log; who opens a handle on the way is informed from then on.
  induction hruns generalizing informed with
  | nil H => exact ⟨informed, hH⟩
  | @call H H₁ H' i c r log first rest ih =>
    obtain ⟨h, d, rfl, hmove⟩ := move_of_call first
    refine ih (hH.move hatomic hlasting hmove (hlog _ List.mem_cons_self)
      (hother _ List.mem_cons_self) fun hchange => ?_)
      (fun e he => hlog e (List.mem_cons_of_mem _ he))
      (fun e he => hother e (List.mem_cons_of_mem _ he)) ?_
    · exact (hinformed [] i _ log rfl hchange).resolve_right List.not_mem_nil
    · rintro front j e back rfl hchange
      rcases hinformed ((i, _) :: front) j e back rfl hchange with hj | hopened
      · exact .inl (.inl hj)
      · rcases List.mem_cons.1 hopened with heq | hopened
        · cases heq
          exact .inl (.inr ⟨rfl, rfl⟩)
        · exact .inr hopened

omit [DecidableEq ι] in
/-- Where a change is known a new handle finds it. -/
theorem Knows.finds (hlasting : Lasting Ready) (hH : Knows Ready kind key v? informed H) :
    Finds H.disk kind key v? := by
  obtain ⟨t, hdurable, hdoc, hfind⟩ := hH.document
  obtain ⟨d', hprepare, hdoc'⟩ := hlasting.prepare hH.ready
  exact (finds_iff hprepare (load_of_encode hdurable (hdoc'.trans hdoc))).2 hfind

/-- A run can be cut in two anywhere. -/
theorem Runs.append {front back : List (ι × Exchange)} {H' : Handles ι δ}
    (h : Runs H (front ++ back) H') : ∃ H₁, Runs H front H₁ ∧ Runs H₁ back H' := by
  induction front generalizing H with
  | nil => exact ⟨H, .nil H, h⟩
  | cons e front ih =>
    cases h with
    | call first rest =>
      obtain ⟨H₁, hfront, hback⟩ := ih rest
      exact ⟨H₁, .call first hfront, hback⟩

/-- What is stored stays sound through a run of any number of handles. -/
theorem Sound.runs (hatomic : Atomic δ) (hlasting : Lasting Ready) {log : List (ι × Exchange)}
    {H' : Handles ι δ} (hruns : Runs H log H') (hH : Sound Ready H)
    (hlog : ∀ e ∈ log, ∀ kind key v, e.2.change? = some (kind, key, some v) → Storable v) :
    Sound Ready H' := by
  induction hruns with
  | nil => exact hH
  | @call H H₁ H' i c r log first rest ih =>
    obtain ⟨h, d, rfl, hmove⟩ := move_of_call first
    exact ih (hH.move hatomic hlasting hmove (hlog _ List.mem_cons_self))
      fun e he => hlog e (List.mem_cons_of_mem _ he)

/-- Whether whoever changes something, apart from one, has opened its handle on the way. -/
def Aware (i : ι) (log : List (ι × Exchange)) : Prop :=
  ∀ front j e back, log = front ++ (j, e) :: back → e.change? ≠ none →
    j = i ∨ (j, ⟨.openStore, .ok ()⟩) ∈ front

end Handles

/-! ### Folders -/

namespace Folder

/-- Whether the folder is there, unless its path is empty. -/
def There (d : Folder) : Prop := d.path.isEmpty = true ∨ d.tree.isFolder d.path = true

/-- No step takes a folder away. -/
theorem foldersStay_perform (s : Step) (d : Folder) :
    FileTree.FoldersStay d.tree (Disk.perform s d).2.tree := by
  by_cases hs : s = .rename
  · subst hs
    simp only [Disk.perform, perform]
    split
    · next t h =>
      obtain ⟨here, there, node, -, hnode, hkind, -, hfree, rfl⟩ := FileTree.rename_ok h
      refine FileTree.foldersStay_move ?_ hfree node
      rw [hnode]
      exact fun heq => hkind (Option.some.inj heq)
    · exact fun _ h => h
  · obtain heq | ⟨upper, content, -, hfree, heq⟩ := perform_ne_rename hs d
    · rw [heq]
      exact fun _ h => h
    · rw [heq]
      exact FileTree.foldersStay_put hfree _

/-- No step leads to another folder. -/
theorem path_perform (s : Step) (d : Folder) : (Disk.perform s d).2.path = d.path :=
  path_of_perform rfl

/-- That a folder is there lasts through all that is done to it. -/
theorem lasting : Lasting There where
  prepared := by
    intro d d' h
    simp only [Disk.prepare, Prod.mk.injEq] at h
    obtain ⟨hmade, rfl⟩ := h
    exact FileTree.isFolder_of_makeFolders (Prod.ext hmade rfl)
  prepare := by
    intro d h
    refine ⟨d, ?_, rfl⟩
    simp only [Disk.prepare, FileTree.makeFolders_of_isFolder h]
  perform := by
    intro d s h
    rw [There, path_perform]
    exact h.imp_right (FileTree.isFolder_of_foldersStay (foldersStay_perform s d))

/-- A fresh folder holds nothing that could be read. -/
theorem Fresh.sane {d : Folder} (h : d.Fresh) : Sane d := by
  obtain ⟨d', hprepare, hholds⟩ := h.holds
  refine ⟨d', hprepare, fun t ht => ?_⟩
  rw [Handle.load, document?_of_holds hholds] at ht
  cases ht
  exact Tables.durable_empty

end Folder

open Handles (Aware Runs)

/-- Several handles are used on one disk, their calls in any order. A change that succeeded is found
    by a new handle, unless the pair was changed again, or another handle changed something although
    it had been opened before the change. Folders do what this asks of a disk. -/
theorem acknowledged_changes_survive :
    (∀ {ι δ : Type} [DecidableEq ι] [Disk δ] (Ready : δ → Prop), Atomic δ → Lasting Ready →
      ∀ (d : δ) (front back : List (ι × Exchange)) (i : ι) (e : Exchange) (H : Handles ι δ)
        (kind key : String) (v? : Option Value), Sane d →
        Runs { disk := d } (front ++ (i, e) :: back) H →
        (∀ e' ∈ front ++ (i, e) :: back, ∀ kind key v,
          e'.2.change? = some (kind, key, some v) → Storable v) →
        e.change? = some (kind, key, v?) →
        (∀ e' ∈ back, ∀ v', e'.2.change? ≠ some (kind, key, v')) → Aware i back →
        Finds H.disk kind key v?) ∧
    Atomic Folder ∧ Lasting Folder.There ∧ ∀ d : Folder, d.Fresh → Sane d := by
  refine ⟨?_, Folder.atomic, Folder.lasting, fun d h => h.sane⟩
  intro ι δ _ _ Ready hatomic hlasting d front back i e H kind key v? hsane hruns hputs hchange
    hother haware
  obtain ⟨H₁, hfront, hrest⟩ := hruns.append
  have hsound := (Handles.Sound.start hsane).runs hatomic hlasting hfront fun e' he' =>
    hputs e' (List.mem_append_left _ he')
  have hback : ∀ e' ∈ (i, e) :: back, ∀ kind key v,
      e'.2.change? = some (kind, key, some v) → Storable v :=
    fun e' he' => hputs e' (List.mem_append_right _ he')
  cases hrest with
  | @call _ H₂ _ _ c r _ first rest =>
    obtain ⟨h, d₁, rfl, hmove⟩ := Handles.move_of_call first
    have hknows := hsound.knows hatomic hlasting hmove (hback _ List.mem_cons_self) hchange
    obtain ⟨informed, hknows⟩ := hknows.runs hatomic hlasting rest
      (fun e' he' => hback e' (List.mem_cons_of_mem _ he')) hother haware
    exact hknows.finds hlasting

/-- A second handle that is opened after a change leaves it when it changes something else. -/
theorem acknowledged_changes_survive_aware :
    let d : Folder := ⟨.empty, ⟨[], ["", "db"]⟩⟩
    ∃ H : Handles Bool Folder,
      Runs { disk := d } [(true, ⟨.openStore, .ok ()⟩), (true, ⟨.put "account" "a" .null, .ok ()⟩),
        (false, ⟨.openStore, .ok ()⟩), (false, ⟨.put "account" "c" .null, .ok ()⟩)] H ∧
      Finds H.disk "account" "a" (some .null) := by
  intro d
  have hfresh : d.Fresh := Folder.fresh_of_holds rfl
    ⟨["db"], .inr (by rfl), by rfl, by rfl, by rfl, by rfl⟩
  have hnull : Storable .null := ⟨.null, by decide⟩
  obtain ⟨d₀, hprepare₀, hholds₀⟩ := hfresh.holds
  have hload₀ : Handle.load d₀ = .ok .empty := by
    rw [Handle.load, Folder.document?_of_holds hholds₀]
    rfl
  have hdurable := Tables.durable_empty.put hnull "account" "a"
  obtain ⟨d₁, hput₁, hholds₁⟩ := Folder.serves.replace hholds₀ _
  obtain ⟨d₂, hprepare₂, hholds₂⟩ := Folder.serves.prepare hholds₁
  have hload₂ := load_of_encode hdurable (Folder.document?_of_holds hholds₂)
  obtain ⟨d₃, hput₃, -⟩ := Folder.serves.replace hholds₂ _
  have hruns : Runs { disk := d } ([(true, ⟨.openStore, .ok ()⟩)] ++
      (true, ⟨.put "account" "a" .null, .ok ()⟩) ::
        [(false, ⟨.openStore, .ok ()⟩), (false, ⟨.put "account" "c" .null, .ok ()⟩)]) _ :=
    .call (Handles.call_openStore rfl hprepare₀ hload₀) <| .call (Handles.call_put rfl hput₁) <|
    .call (Handles.call_openStore rfl hprepare₂ hload₂) <| .call (Handles.call_put rfl hput₃) <|
    .nil _
  obtain ⟨hsurvive, hatomic, hlasting, hsane⟩ := acknowledged_changes_survive
  refine ⟨_, hruns, hsurvive Folder.There hatomic hlasting d _ _ true _ _ "account" "a" _
    (hsane d hfresh) hruns ?_ rfl ?_ ?_⟩
  · intro e' he' kind key v hcall
    simp only [List.mem_append, List.mem_cons, List.not_mem_nil, or_false] at he'
    rcases he' with rfl | rfl | rfl | rfl <;> cases hcall <;> exact hnull
  · intro e' he' v' hchange
    simp only [List.mem_cons, List.not_mem_nil, or_false] at he'
    rcases he' with rfl | rfl <;> simp [Exchange.change?] at hchange
  · intro front j e back heq hchange
    match front with
    | [] =>
      cases heq
      exact absurd rfl hchange
    | [_] =>
      cases heq
      exact .inr List.mem_cons_self
    | _ :: _ :: _ => simp at heq

/-- A second handle that was opened before a change undoes it when it changes something else. -/
theorem acknowledged_change_undone :
    ¬ ∀ (d : Folder) (front back : List (Bool × Exchange)) (i : Bool) (e : Exchange)
      (H : Handles Bool Folder) (kind key : String) (v? : Option Value), d.Fresh →
      Runs { disk := d } (front ++ (i, e) :: back) H →
      (∀ e' ∈ front ++ (i, e) :: back, ∀ kind key v,
        e'.2.change? = some (kind, key, some v) → Storable v) →
      e.change? = some (kind, key, v?) →
      (∀ e' ∈ back, ∀ v', e'.2.change? ≠ some (kind, key, v')) → Finds H.disk kind key v? := by
  intro hsurvive
  let d : Folder := ⟨.empty, ⟨[], ["", "db"]⟩⟩
  have hfresh : d.Fresh := Folder.fresh_of_holds rfl
    ⟨["db"], .inr (by rfl), by rfl, by rfl, by rfl, by rfl⟩
  have hnull : Storable .null := ⟨.null, by decide⟩
  obtain ⟨d₀, hprepare₀, hholds₀⟩ := hfresh.holds
  obtain ⟨d₁, hprepare₁, hholds₁⟩ := Folder.serves.prepare hholds₀
  have hload : ∀ {d}, Folder.Holds none d → Handle.load d = .ok .empty := by
    intro d hholds
    rw [Handle.load, Folder.document?_of_holds hholds]
    rfl
  -- Both handles write all of their tables, and neither has what the other put in.
  obtain ⟨d₂, hput₂, hholds₂⟩ := Folder.serves.replace hholds₁ _
  obtain ⟨d₃, hput₃, hholds₃⟩ := Folder.serves.replace hholds₂ _
  have hruns : Runs { disk := d } ([(true, ⟨.openStore, .ok ()⟩), (false, ⟨.openStore, .ok ()⟩)] ++
      (true, ⟨.put "account" "a" .null, .ok ()⟩) ::
        [(false, ⟨.put "account" "c" .null, .ok ()⟩)]) _ :=
    .call (Handles.call_openStore rfl hprepare₀ (hload hholds₀)) <|
    .call (Handles.call_openStore rfl hprepare₁ (hload hholds₁)) <|
    .call (Handles.call_put rfl hput₂) <| .call (Handles.call_put rfl hput₃) <| .nil _
  have hfinds : Finds d₃ "account" "a" (some .null) := by
    refine hsurvive d _ _ true _ _ "account" "a" _ hfresh hruns ?_ rfl ?_
    · intro e' he' kind key v hcall
      simp only [List.mem_append, List.mem_cons, List.not_mem_nil, or_false] at he'
      rcases he' with (rfl | rfl) | rfl | rfl <;> cases hcall <;> exact hnull
    · intro e' he' v' hchange
      rw [List.mem_singleton.1 he'] at hchange
      simp [Exchange.change?] at hchange
  obtain ⟨d₄, hprepare₄, hholds₄⟩ := Folder.serves.prepare hholds₃
  have hload₄ := load_of_encode (Tables.durable_empty.put hnull "account" "c")
    (Folder.document?_of_holds hholds₄)
  have hfind := (finds_iff hprepare₄ hload₄).1 hfinds
  rw [Tables.find?_put, if_neg (by decide)] at hfind
  cases hfind

end Gatehouse.Storage
