import Gatehouse.Proofs.Lifecycle.WholeLife
import Gatehouse.Proofs.Storage.Exchange
import Gatehouse.Proofs.Storage.Failure
import Gatehouse.Proofs.Storage.Store
import Mathlib.Logic.Function.Basic

/-!
# Whose session it is

Many parties share a backend, and each call of theirs is one step. A party opens the backend before
it makes any other call, and after it has closed it, or was refused, it makes none. If all keep to
this, a backend that is open has been opened by one of them, which has not closed it yet: nobody
else can open it, and nobody else closes it.

## Key results

- `Course.inSession_iff`: what a party's exchanges say about where it is
- `Owned.call`: a call by a party that may make it leaves the backend owned
- `orderly_memory` / `orderly_persistent`: what is relied on of a backend
-/

namespace Gatehouse.Storage

/-! ### The course of one party -/

/-- Where a party is with its session. -/
inductive Stage
  | before
  | inside
  | over

/-- Where a party has to be to make a call. -/
def Call.stage : Call → Stage
  | openStore => .before
  | _ => .inside

/-- Where an exchange leaves a party. -/
def Exchange.stage : Exchange → Stage
  | ⟨.openStore, .ok _⟩ => .inside
  | ⟨.openStore, .error _⟩ => .over
  | ⟨.closeStore, _⟩ => .over
  | _ => .inside

/-- Whether a party made each of its calls where it may be made, and where it is now. -/
inductive Course : List Exchange → Stage → Prop
  | nil : Course [] .before
  | snoc {es : List Exchange} {c : Call} (h : Course es c.stage) (r : Result c.Reply) :
    Course (es ++ [⟨c, r⟩]) (Exchange.stage ⟨c, r⟩)

/-- Whether a backend was opened successfully and not closed since. -/
def InSession (es : List Exchange) : Prop :=
  ∃ front back, es = front ++ ⟨.openStore, .ok ()⟩ :: back ∧ ∀ e ∈ back, e.call ≠ .closeStore

variable {es : List Exchange} {s : Stage}

/-- Who has made no calls is in no session. -/
theorem not_inSession_nil : ¬InSession [] := by
  rintro ⟨front, back, h, -⟩
  simp at h

/-- One more exchange begins a session, or goes on with one that it does not end. -/
theorem inSession_snoc {e : Exchange} :
    InSession (es ++ [e]) ↔ e = ⟨.openStore, .ok ()⟩ ∨ InSession es ∧ e.call ≠ .closeStore := by
  constructor
  · rintro ⟨front, back, heq, hback⟩
    rcases List.eq_nil_or_concat back with rfl | ⟨back, last, rfl⟩
    · exact .inl (List.append_singleton_inj.1 heq).2
    · rw [List.concat_eq_append] at heq hback
      rw [← List.cons_append, ← List.append_assoc] at heq
      obtain ⟨rfl, rfl⟩ := List.append_singleton_inj.1 heq
      exact .inr ⟨⟨front, back, rfl, fun e' he' => hback e' (List.mem_append_left _ he')⟩,
        hback e (List.mem_append_right _ List.mem_cons_self)⟩
  · rintro (rfl | ⟨⟨front, back, rfl, hback⟩, he⟩)
    · exact ⟨es, [], rfl, nofun⟩
    · refine ⟨front, back ++ [e], by simp, fun e' he' => ?_⟩
      rcases List.mem_append.1 he' with he' | he'
      · exact hback e' he'
      · rwa [List.mem_singleton.1 he']

/-- Whoever has made a call is no longer before its session. -/
theorem Exchange.stage_ne_before (e : Exchange) : e.stage ≠ .before := by
  obtain ⟨c, r⟩ := e
  cases c with
  | openStore => cases r <;> rintro ⟨⟩
  | closeStore | put | get | list | delete => rintro ⟨⟩

namespace Course

/-- A party that may still open the backend has made no call. -/
theorem eq_nil (h : Course es .before) : es = [] := by
  generalize hs : Stage.before = s at h
  cases h with
  | nil => rfl
  | snoc _ r => exact absurd hs.symm (Exchange.stage_ne_before _)

/-- A party is in session if and only if it opened the backend and has not closed it. -/
theorem inSession_iff (h : Course es s) : InSession es ↔ s = .inside := by
  -- Induction on the exchanges from the end: each call is possible at one stage only.
  induction h with
  | nil => exact ⟨fun h => absurd h not_inSession_nil, nofun⟩
  | @snoc es c h r ih =>
    rw [inSession_snoc, ih]
    cases c with
    | openStore => cases r <;> simp [Call.stage, Exchange.stage]
    | closeStore | put | get | list | delete => simp [Call.stage, Exchange.stage]

/-- Whoever is refused made no other call. -/
theorem refused (h : Course es s) {f : Failure} (hmem : ⟨.openStore, .error f⟩ ∈ es) :
    es = [⟨.openStore, .error f⟩] ∧ s = .over := by
  induction h with
  | nil => cases hmem
  | @snoc es c h r ih =>
    rcases List.mem_append.1 hmem with hmem | hmem
    · -- No call is made by a party that is through.
      obtain ⟨-, hover⟩ := ih hmem
      cases c <;> cases hover
    · cases List.mem_singleton.1 hmem
      rw [eq_nil h]
      exact ⟨rfl, rfl⟩

end Course

/-! ### All parties -/

/-- A backend that is opened and closed in turns, that no call for data opens or closes, and on
    which such a call finds it open if it is. -/
structure Orderly (τ : Type) [Backend τ] : Prop extends Lifecycle.Sessions τ where
  isOpen_data : ∀ (c : Call) (t : τ), c ≠ .openStore → c ≠ .closeStore →
    Backend.isOpen (Backend.call c t).2 = Backend.isOpen t
  data_ne_notOpen : ∀ (c : Call) (t : τ), c ≠ .openStore → c ≠ .closeStore →
    Backend.isOpen t = true → (Backend.call c t).1 ≠ fail .notOpen

/-- A record that is asked for is never refused as if nothing were open. -/
theorem Tables.get_ne_notOpen (t : Tables) (kind key : String) :
    t.get kind key ≠ .error .notOpen := by
  rw [get]
  split <;> rintro ⟨⟩

/-- A record that is to be deleted is never refused as if nothing were open. -/
theorem Tables.delete_ne_notOpen (t : Tables) (kind key : String) :
    t.delete kind key ≠ .error .notOpen := by
  rw [delete]
  split <;> rintro ⟨⟩

section Memory

variable {α : Type} (m : Memory)

/-- A change neither opens nor closes a storage in memory. -/
theorem Memory.isOpen_changing (f : Tables → Except Error Tables) :
    (m.changing f).2.isOpen = m.isOpen := by
  rw [changing]
  split
  · split <;> rfl
  · rfl

/-- An open storage in memory does not refuse a change as if it were closed. -/
theorem Memory.changing_ne_notOpen {m : Memory} (h : m.isOpen = true)
    {f : Tables → Except Error Tables} (hf : ∀ t, f t ≠ .error .notOpen) :
    (m.changing f).1 ≠ fail .notOpen := by
  rw [changing, if_pos h]
  split
  · rintro ⟨⟩
  · next e he =>
    rintro ⟨⟩
    exact hf _ he

/-- An error that does not tell of a closed storage does not do so as a failure. -/
theorem mapError_ne_notOpen {r : Except Error α} (h : r ≠ .error .notOpen) :
    r.mapError Failure.error ≠ fail .notOpen := by
  cases r with
  | ok a => rintro ⟨⟩
  | error e =>
    rintro ⟨⟩
    exact h rfl

/-- An open storage in memory does not refuse to be read as if it were closed. -/
theorem Memory.reading_ne_notOpen {m : Memory} (h : m.isOpen = true)
    {f : Tables → Except Error α} (hf : ∀ t, f t ≠ .error .notOpen) :
    (m.reading f).1 ≠ fail .notOpen := by
  rw [reading, if_pos h]
  exact mapError_ne_notOpen (hf _)

/-- Storages in memory are orderly. -/
theorem orderly_memory : Orderly Memory where
  toSessions := Lifecycle.sessions_memory
  isOpen_data c m hopen hclose := by
    cases c with
    | openStore => exact absurd rfl hopen
    | closeStore => exact absurd rfl hclose
    | put | delete => exact m.isOpen_changing _
    | get | list => exact congrArg Memory.isOpen (m.reading_snd _)
  data_ne_notOpen c m hopen hclose h := by
    cases c with
    | openStore => exact absurd rfl hopen
    | closeStore => exact absurd rfl hclose
    | put => exact Memory.changing_ne_notOpen h (by rintro _ ⟨⟩)
    | delete => exact Memory.changing_ne_notOpen h fun t => t.delete_ne_notOpen _ _
    | get => exact Memory.reading_ne_notOpen h fun t => t.get_ne_notOpen _ _
    | list => exact Memory.reading_ne_notOpen h (by rintro _ ⟨⟩)

end Memory

section Persistent

variable {α δ : Type} [Disk δ] {h : Handle}

/-- A change neither opens nor closes a handle. -/
theorem Handle.isOpen_changing (h : Handle) (d : δ) (f : Tables → Except Error Tables) :
    (h.changing d f).2.1.isOpen = h.isOpen := by
  obtain ⟨-, heq⟩ | ⟨t, ht, ⟨e, -, heq⟩ | ⟨t', -, ⟨e, d', -, heq⟩ | ⟨d', -, heq⟩⟩⟩ :=
    h.changing_cases d f
  all_goals rw [heq]
  rw [isOpen, isOpen, ht]
  rfl

/-- An open handle changes tables or reports what is wrong with them or with the disk. -/
theorem Handle.changing_ne_notOpen (hopen : h.isOpen = true) (d : δ)
    {f : Tables → Except Error Tables} (hf : ∀ t, f t ≠ .error .notOpen) :
    (h.changing d f).1 ≠ fail .notOpen := by
  obtain ⟨hnone, -⟩ | ⟨t, -, ⟨e, he, heq⟩ | ⟨t', -, ⟨e, d', -, heq⟩ | ⟨d', -, heq⟩⟩⟩ :=
    h.changing_cases d f
  · rw [isOpen, hnone] at hopen
    cases hopen
  · rw [heq]
    rintro ⟨⟩
    exact hf t he
  · rw [heq]
    rintro ⟨⟩
  · rw [heq]
    rintro ⟨⟩

omit [Disk δ] in
/-- An open handle does not refuse to be read as if it were closed. -/
theorem Handle.reading_ne_notOpen (hopen : h.isOpen = true) (d : δ)
    {f : Tables → Except Error α} (hf : ∀ t, f t ≠ .error .notOpen) :
    (h.reading d f).1 ≠ fail .notOpen := by
  obtain ⟨t, ht⟩ := Option.isSome_iff_exists.1 hopen
  rw [reading, ht]
  exact mapError_ne_notOpen (hf t)

/-- Storages in a document are orderly, whatever the disk does. -/
theorem orderly_persistent (δ : Type) [Disk δ] : Orderly (Persistent δ) where
  toSessions := Lifecycle.sessions_persistent δ
  isOpen_data c p hopen hclose := by
    cases c with
    | openStore => exact absurd rfl hopen
    | closeStore => exact absurd rfl hclose
    | put kind key v => exact p.handle.isOpen_changing p.disk fun t => .ok (t.put kind key v)
    | delete kind key => exact p.handle.isOpen_changing p.disk fun t => t.delete kind key
    | get | list => exact congrArg (fun q => Handle.isOpen q.1) (p.handle.reading_snd p.disk _)
  data_ne_notOpen c p hopen hclose h := by
    cases c with
    | openStore => exact absurd rfl hopen
    | closeStore => exact absurd rfl hclose
    | put kind key v =>
      exact Handle.changing_ne_notOpen (f := fun t => .ok (t.put kind key v)) h p.disk
        (by rintro _ ⟨⟩)
    | delete kind key =>
      exact Handle.changing_ne_notOpen h p.disk fun t => t.delete_ne_notOpen kind key
    | get => exact Handle.reading_ne_notOpen h p.disk fun t => t.get_ne_notOpen _ _
    | list => exact Handle.reading_ne_notOpen h p.disk (by rintro _ ⟨⟩)

end Persistent

/-! ### All parties -/

section Owned

variable {ι τ : Type} [DecidableEq ι] [Backend τ]

/-- What passed between one of the parties and the backend. -/
def own (w : ι) (log : List (ι × Exchange)) : List Exchange :=
  log.filterMap fun e => if e.1 = w then some e.2 else none

/-- An exchange of one's own comes last among one's own. -/
theorem own_snoc_self (w : ι) (log : List (ι × Exchange)) (e : Exchange) :
    own w (log ++ [(w, e)]) = own w log ++ [e] := by
  simp [own]

/-- The exchange of another is none of one's own. -/
theorem own_snoc_of_ne {w w' : ι} (h : w' ≠ w) (log : List (ι × Exchange)) (e : Exchange) :
    own w' (log ++ [(w, e)]) = own w' log := by
  simp [own, h.symm]

/-- One's own exchanges are those that stand in the log under one's name. -/
theorem mem_own {w : ι} {log : List (ι × Exchange)} {e : Exchange} :
    e ∈ own w log ↔ (w, e) ∈ log := by
  simp [own]

/-- Whether a backend is owned by the one party that is inside, if there is one, after what has
    passed between the parties and it. -/
structure Owned (t : τ) (log : List (ι × Exchange)) (stage : ι → Stage) : Prop where
  course : ∀ w, Course (own w log) (stage w)
  isOpen_iff : Backend.isOpen t = true ↔ ∃ w, stage w = .inside
  unique : ∀ w w', stage w = .inside → stage w' = .inside → w = w'
  undisturbed : ∀ w c r, (w, ⟨c, r⟩) ∈ log → c ≠ .openStore → r ≠ fail .notOpen
  balanced : log.countP (·.2.closes) + (if Backend.isOpen t then 1 else 0) =
    log.countP (·.2.opens)

namespace Owned

variable {t t' : τ} {log : List (ι × Exchange)} {stage : ι → Stage} {w : ι} {c : Call}

/-- A closed storage is owned by nobody, and nobody has begun. -/
theorem start (h : Backend.isOpen t = false) :
    Owned t ([] : List (ι × Exchange)) fun _ => .before where
  course _ := .nil
  isOpen_iff := by simp [h]
  unique := nofun
  undisturbed := nofun
  balanced := by simp [h]

/-- What is not seen of a backend does not matter to who owns it. -/
theorem elsewhere (h : Owned t log stage) (hsame : Backend.isOpen t' = Backend.isOpen t) :
    Owned t' log stage where
  course := h.course
  isOpen_iff := by rw [hsame, h.isOpen_iff]
  unique := h.unique
  undisturbed := h.undisturbed
  balanced := by rw [hsame, h.balanced]

/-- One more exchange takes its maker to the next stage, and leaves all others where they are. -/
theorem course_snoc (h : Owned t log stage) (hstage : stage w = c.stage) (r : Result c.Reply)
    (w' : ι) : Course (own w' (log ++ [(w, ⟨c, r⟩)]))
      (Function.update stage w (Exchange.stage ⟨c, r⟩) w') := by
  rcases eq_or_ne w' w with rfl | hne
  · have hw := h.course w'
    rw [hstage] at hw
    rw [own_snoc_self, Function.update_self]
    exact hw.snoc r
  · rw [own_snoc_of_ne hne, Function.update_of_ne hne]
    exact h.course w'

/-- One more exchange that is not refused as if nothing were open disturbs nobody. -/
theorem undisturbed_snoc (h : Owned t log stage) {r : Result c.Reply}
    (hr : c ≠ .openStore → r ≠ fail .notOpen) (w' : ι) (c' : Call) (r' : Result c'.Reply)
    (hmem : (w', ⟨c', r'⟩) ∈ log ++ [(w, ⟨c, r⟩)]) (hc' : c' ≠ .openStore) :
    r' ≠ fail .notOpen := by
  rcases List.mem_append.1 hmem with hmem | hmem
  · exact h.undisturbed w' c' r' hmem hc'
  · cases List.mem_singleton.1 hmem
    exact hr hc'

/-- A call that neither opens nor closes the backend leaves it to whom it belongs. -/
theorem keep (h : Owned t log stage) (hstage : stage w = c.stage) {r : Result c.Reply}
    (hsame : Backend.isOpen t' = Backend.isOpen t) (hr : c ≠ .openStore → r ≠ fail .notOpen)
    (hinside : Exchange.stage ⟨c, r⟩ = .inside ↔ c.stage = .inside)
    (hcount : Exchange.opens ⟨c, r⟩ = false ∧ Exchange.closes ⟨c, r⟩ = false) :
    Owned t' (log ++ [(w, ⟨c, r⟩)]) (Function.update stage w (Exchange.stage ⟨c, r⟩)) := by
  have hsame_inside : ∀ w', Function.update stage w (Exchange.stage ⟨c, r⟩) w' = .inside ↔
      stage w' = .inside := by
    intro w'
    rcases eq_or_ne w' w with rfl | hne
    · rw [Function.update_self, hinside, hstage]
    · rw [Function.update_of_ne hne]
  refine ⟨h.course_snoc hstage r, ?_, ?_, h.undisturbed_snoc hr, ?_⟩
  · simp only [hsame, hsame_inside, h.isOpen_iff]
  · intro w₁ w₂ h₁ h₂
    exact h.unique w₁ w₂ ((hsame_inside w₁).1 h₁) ((hsame_inside w₂).1 h₂)
  · simp only [List.countP_append, List.countP_singleton, hcount, hsame, h.balanced,
      Bool.false_eq_true, if_false, Nat.add_zero]

/-- Whoever opens the backend is the only one inside. -/
theorem opened (h : Owned t log stage) (hstage : stage w = .before)
    (hclosed : Backend.isOpen t = false) (hopen : Backend.isOpen t' = true) :
    Owned t' (log ++ [(w, ⟨.openStore, .ok ()⟩)]) (Function.update stage w .inside) := by
  -- A closed backend has nobody inside, so whoever opens it is alone.
  have hnone : ∀ w', stage w' ≠ .inside := by
    intro w' hw'
    rw [h.isOpen_iff.2 ⟨w', hw'⟩] at hclosed
    cases hclosed
  have honly : ∀ w', Function.update stage w .inside w' = .inside → w' = w := by
    intro w' hw'
    by_contra hne
    rw [Function.update_of_ne hne] at hw'
    exact hnone w' hw'
  have hbalanced := h.balanced
  refine ⟨h.course_snoc (c := .openStore) hstage (.ok ()), ?_, ?_, h.undisturbed_snoc nofun, ?_⟩
  · exact ⟨fun _ => ⟨w, Function.update_self _ _ _⟩, fun _ => hopen⟩
  · intro w₁ w₂ h₁ h₂
    rw [honly w₁ h₁, honly w₂ h₂]
  · rw [hclosed] at hbalanced
    rw [List.countP_append, List.countP_append, List.countP_singleton, List.countP_singleton, hopen]
    exact congrArg (· + 1) hbalanced

/-- When the one who is inside closes the backend, nobody is left inside. -/
theorem closed (h : Owned t log stage) (hstage : stage w = .inside)
    (hopen : Backend.isOpen t = true) (hclosed : Backend.isOpen t' = false) :
    Owned t' (log ++ [(w, ⟨.closeStore, .ok ()⟩)]) (Function.update stage w .over) := by
  have hnone : ∀ w', Function.update stage w .over w' ≠ .inside := by
    intro w' hw'
    rcases eq_or_ne w' w with rfl | hne
    · rw [Function.update_self] at hw'
      cases hw'
    · rw [Function.update_of_ne hne] at hw'
      exact hne (h.unique w' w hw' hstage)
  have hbalanced := h.balanced
  refine ⟨h.course_snoc (c := .closeStore) hstage (.ok ()), ?_, ?_, h.undisturbed_snoc nofun, ?_⟩
  · simp [hclosed, hnone]
  · intro w₁ w₂ h₁
    exact absurd h₁ (hnone w₁)
  · rw [hopen] at hbalanced
    rw [List.countP_append, List.countP_append, List.countP_singleton, List.countP_singleton,
      hclosed]
    exact hbalanced

/-- A call by a party that may make it leaves the backend owned. -/
theorem call (horderly : Orderly τ) (h : Owned t log stage) (hstage : stage w = c.stage) :
    Owned (Backend.call c t).2 (log ++ [(w, ⟨c, (Backend.call c t).1⟩)])
      (Function.update stage w (Exchange.stage ⟨c, (Backend.call c t).1⟩)) := by
  cases c with
  | openStore =>
    obtain ⟨e, t₁, hcall, hsame⟩ | ⟨t₁, -, hwas, hcall, -⟩ := horderly.open_cases t
    · rw [hcall]
      exact h.keep hstage hsame (absurd rfl) (by simp [Exchange.stage, Call.stage, fail]) ⟨rfl, rfl⟩
    · rw [hcall]
      exact h.opened hstage hwas (horderly.open_ok t t₁ hcall)
  | closeStore =>
    have hopen := h.isOpen_iff.2 ⟨w, hstage⟩
    obtain ⟨t₁, hcall, hclosed⟩ := horderly.close_isOpen t hopen
    rw [hcall]
    exact h.closed hstage hopen hclosed
  | put | get | list | delete =>
    have hopen := h.isOpen_iff.2 ⟨w, hstage⟩
    exact h.keep hstage (horderly.isOpen_data _ t (by rintro ⟨⟩) (by rintro ⟨⟩))
      (fun _ => horderly.data_ne_notOpen _ t (by rintro ⟨⟩) (by rintro ⟨⟩) hopen)
      Iff.rfl ⟨rfl, rfl⟩

/-- The one who is in session is the one inside. -/
theorem inSession_iff (h : Owned t log stage) (w : ι) :
    InSession (own w log) ↔ stage w = .inside := (h.course w).inSession_iff

end Owned

end Owned

end Gatehouse.Storage
