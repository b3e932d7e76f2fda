import Gatehouse.Proofs.Lifecycle.Course
import Gatehouse.Proofs.Lifecycle.Parts
import Mathlib.Logic.Function.Basic
import Mathlib.Logic.Relation

/-!
# One cleanup, whoever asks for it

Any number of parties use one controller at the same time, each in its own way. Their actions come
in any order, the shutdown may be triggered at any point, and what the application holds may change
in between. The cleanup of the application is executed once at most, and all who ask for it are told
the outcome of this one execution.

Each party keeps to its part, and the parts of all fit how far the cleanup is and what is on record:
this is kept by every action of any of them (`Crowd.InStep.act`).

## Key results

- `CleanUp.Fits.inHand`: one party at a time has the cleanup in hand
- `Crowd.InStep.step`: what each step of a crowd keeps
- `Crowd.InStep.moving`: nobody is stuck
- `cleaned_up_once`: every crowd, at every point
-/

namespace Gatehouse.Lifecycle

/-! ## What a log says -/

namespace Deed

/-- What the cleanup came to, if a deed is its execution. -/
def executed? : Deed → Option (Except AppError Unit)
  | ⟨.cleanUp, r⟩ => some r
  | _ => none

/-- What a deed tells about the cleanup to the one who does it. -/
def told? : Deed → Option Bool
  | ⟨.claim, told⟩ => told
  | ⟨.cleanUp, r⟩ => some r.isOk
  | _ => none

/-- The phase that a deed publishes. -/
def published? : Deed → Option Phase
  | ⟨.publish p, _⟩ => some p
  | _ => none

end Deed

section Log

variable {ι : Type}

/-- The executions of the cleanup, with what each came to. -/
def executions (log : List (ι × Deed)) : List (Except AppError Unit) :=
  log.filterMap fun e => e.2.executed?

/-- The phases that were published. -/
def phases (log : List (ι × Deed)) : List Phase := log.filterMap fun e => e.2.published?

/-- What somebody was told about the cleanup. -/
def told [DecidableEq ι] (i : ι) (log : List (ι × Deed)) : List Bool :=
  (log.filter fun e => e.1 = i).filterMap fun e => e.2.told?

/-- One more deed is an execution of the cleanup or is none. -/
theorem executions_snoc (log : List (ι × Deed)) (i : ι) (d : Deed) :
    executions (log ++ [(i, d)]) = executions log ++ d.executed?.toList := by
  simp only [executions, List.filterMap_append, List.filterMap_cons, List.filterMap_nil]
  cases d.executed? <;> rfl

/-- One more deed publishes a phase or does not. -/
theorem phases_snoc (log : List (ι × Deed)) (i : ι) (d : Deed) :
    phases (log ++ [(i, d)]) = phases log ++ d.published?.toList := by
  simp only [phases, List.filterMap_append, List.filterMap_cons, List.filterMap_nil]
  cases d.published? <;> rfl

/-- One more deed of a party tells it the outcome or does not, and tells others nothing. -/
theorem told_snoc [DecidableEq ι] (i j : ι) (log : List (ι × Deed)) (d : Deed) :
    told j (log ++ [(i, d)]) = told j log ++ if i = j then d.told?.toList else [] := by
  unfold told
  rw [List.filter_append, List.filterMap_append]
  congr 1
  by_cases h : i = j
  · simp only [h, List.filter_cons, decide_true, if_true, List.filter_nil, List.filterMap_cons,
      List.filterMap_nil]
    cases d.told? <;> rfl
  · simp [h]

end Log

/-! ## Crowds -/

/-- Those who use one controller, with what is left of the use of each, and the log of what they
    did. -/
structure Crowd (ι σ : Type) (uses : ι → Use) where
  state : σ
  controller : Controller := {}
  rest : (i : ι) → Procedure (uses i).Value
  log : List (ι × Deed) := []

namespace Crowd

variable {ι σ : Type} [DecidableEq ι] {uses : ι → Use} {app : Application σ}
  {C C' : Crowd ι σ uses}

/-- The crowd in which nobody has begun. -/
def start (uses : ι → Use) (s : σ) : Crowd ι σ uses :=
  { state := s, rest := fun i => (uses i).procedure }

/-- The crowd after somebody did something that leaves a state, and goes on with a procedure. -/
def afterDeed (C : Crowd ι σ uses) (i : ι) (d : Deed) (left : Controller × σ)
    (rest : Procedure (uses i).Value) : Crowd ι σ uses where
  state := left.2
  controller := left.1
  rest := Function.update C.rest i rest
  log := C.log ++ [(i, d)]

/-- Somebody takes the next action. -/
inductive Acts (app : Application σ) (C : Crowd ι σ uses) (i : ι) : Crowd ι σ uses → Prop
  | reply {a : Action} {next : a.Reply → Procedure (uses i).Value} {r : a.Reply}
    {left : Controller × σ} (h : C.rest i = .act a next)
    (hreply : Replies app a (C.controller, C.state) r left) :
    Acts app C i (C.afterDeed i ⟨a, r⟩ left (next r))

/-- What can happen next. -/
inductive Step (app : Application σ) : Crowd ι σ uses → Crowd ι σ uses → Prop
  | act {C C' : Crowd ι σ uses} {i : ι} (h : C.Acts app i C') : Step app C C'
  /-- The shutdown is triggered from outside. -/
  | trigger (C : Crowd ι σ uses) :
    Step app C { C with controller := { C.controller with triggered := true } }
  /-- What the application holds changes. -/
  | elsewhere (C : Crowd ι σ uses) (s : σ) : Step app C { C with state := s }

/-- Whether somebody has the cleanup in hand. -/
def Executes (C : Crowd ι σ uses) (i : ι) : Prop :=
  (∃ next, C.rest i = .act .cleanUp next) ∨ ∃ b next, C.rest i = .act (.settle b) next

/-- How somebody stands. -/
inductive Moves (app : Application σ) (C : Crowd ι σ uses) (i : ι) : Prop
  | ended {x : (uses i).Value} (h : C.rest i = .done x)
  | acts {C' : Crowd ι σ uses} (h : C.Acts app i C')
  /-- It serves until the shutdown, which has not been triggered. -/
  | awaits {server : Server} {next : Option (Except ServerError Unit) → Procedure (uses i).Value}
    (h : C.rest i = .act (.await server) next) (hend : server.end? = none)
    (hrunning : C.controller.triggered = false)
  /-- The application gives up when it is asked to acquire what it needs. -/
  | gaveUp {next : Except AppError Unit → Procedure (uses i).Value}
    (h : C.rest i = .act .init next) (hinit : (app.init C.state).1 = none)
  /-- It waits for the outcome of a cleanup that somebody else executes, who can go on. -/
  | waits {next : Option Bool → Procedure (uses i).Value} {j : ι} {C' : Crowd ι σ uses}
    (h : C.rest i = .act .claim next) (hne : j ≠ i) (hexecutes : C.Executes j)
    (hacts : C.Acts app j C')

end Crowd

/-! ### How far the cleanup is -/

section Fits

variable {ι : Type} [DecidableEq ι] {part : ι → Part} {done : List (Except AppError Unit)} {i : ι}

/-- Whether the parts of all and the executions so far fit how far the cleanup is. -/
def CleanUp.Fits (part : ι → Part) (done : List (Except AppError Unit)) : CleanUp → Prop
  | .pending => done = [] ∧ ∀ i, (part i).Outside
  | .running => ∃ h, ((part h = .executor ∧ done = []) ∨ ∃ r, part h = .reporter r ∧ done = [r]) ∧
    ∀ i, i ≠ h → (part i).Outside
  | .finished b => ∃ r, r.isOk = b ∧ done = [r] ∧ ∀ i, (part i).Outside ∨ part i = .informed b

namespace CleanUp.Fits

omit [DecidableEq ι] in
/-- There was one execution at most. -/
theorem length_le_one {k : CleanUp} (h : k.Fits part done) : done.length ≤ 1 := by
  match k, h with
  | .pending, ⟨hdone, _⟩ => simp [hdone]
  | .running, ⟨_, .inl ⟨_, hdone⟩, _⟩ => simp [hdone]
  | .running, ⟨_, .inr ⟨_, _, hdone⟩, _⟩ => simp [hdone]
  | .finished _, ⟨_, _, hdone, _⟩ => simp [hdone]

omit [DecidableEq ι] in
/-- What anybody knows is the outcome of the one execution. -/
theorem of_mem_knowledge {k : CleanUp} (h : k.Fits part done) {b : Bool}
    (hb : b ∈ (part i).knowledge) : ∃ r, done = [r] ∧ b = r.isOk := by
  -- Who knows something is not outside, and so holds the cleanup or was informed.
  have hinside : ¬(part i).Outside := by
    intro hout
    rw [hout.knowledge_eq] at hb
    cases hb
  cases k with
  | pending => exact absurd (h.2 i) hinside
  | running =>
    obtain ⟨holder, hholder, hothers⟩ := h
    obtain rfl : i = holder := by
      by_contra hne
      exact hinside (hothers i hne)
    rcases hholder with ⟨hi, -⟩ | ⟨r, hi, rfl⟩
    · rw [hi] at hb
      exact absurd hb List.not_mem_nil
    · rw [hi] at hb
      exact ⟨r, rfl, List.mem_singleton.1 hb⟩
  | finished b' =>
    obtain ⟨r, rfl, rfl, hall⟩ := h
    have hi := (hall i).resolve_left hinside
    rw [hi] at hb
    exact ⟨r, rfl, List.mem_singleton.1 hb⟩

/-- Who is outside and stays there changes nothing. -/
theorem outside {k : CleanUp} (h : k.Fits part done) (hi : (part i).Outside) {m : Part}
    (hm : m.Outside) : k.Fits (Function.update part i m) done := by
  have hupdate : ∀ {P : ι → Part → Prop}, (∀ j, P j (part j)) → P i m →
      ∀ j, P j (Function.update part i m j) := fun hP hPi =>
    (Function.forall_update_iff part _).2 ⟨hPi, fun j _ => hP j⟩
  cases k with
  | pending => exact ⟨h.1, hupdate (P := fun _ m => m.Outside) h.2 hm⟩
  | running =>
    obtain ⟨holder, hholder, hothers⟩ := h
    -- Who is outside is not the one that holds the cleanup.
    have hne : holder ≠ i := by
      rintro rfl
      rcases hholder with ⟨hpart, -⟩ | ⟨r, hpart, -⟩
      · rw [hpart] at hi
        exact hi
      · rw [hpart] at hi
        exact hi
    refine ⟨holder, ?_, hupdate (P := fun j m => j ≠ holder → m.Outside) hothers fun _ => hm⟩
    rwa [Function.update_of_ne hne]
  | finished b =>
    obtain ⟨r, hr, hdone, hall⟩ := h
    exact ⟨r, hr, hdone,
      hupdate (P := fun _ m => m.Outside ∨ m = .informed b) hall (.inl hm)⟩

/-- The first who asks has to execute the cleanup. -/
theorem first (h : CleanUp.pending.Fits part done) (i : ι) :
    CleanUp.running.Fits (Function.update part i .executor) done := by
  refine ⟨i, .inl ⟨Function.update_self .., h.1⟩, fun j hne => ?_⟩
  rw [Function.update_of_ne hne]
  exact h.2 j

/-- Who asks when the cleanup is over is told its outcome. -/
theorem later {b : Bool} (h : (CleanUp.finished b).Fits part done) (i : ι) :
    (CleanUp.finished b).Fits (Function.update part i (.informed b)) done := by
  obtain ⟨r, hr, hdone, hall⟩ := h
  refine ⟨r, hr, hdone, fun j => ?_⟩
  rcases eq_or_ne j i with rfl | hne
  · exact .inr (Function.update_self ..)
  · rw [Function.update_of_ne hne]
    exact hall j

/-- Who has the cleanup in hand is the only one, while it is running. -/
theorem inHand {k : CleanUp} (h : k.Fits part done) (hi : ¬(part i).Free) :
    k = .running ∧ ((part i = .executor ∧ done = []) ∨ ∃ r, part i = .reporter r ∧ done = [r]) ∧
      ∀ j, j ≠ i → (part j).Outside := by
  have hinside : ¬(part i).Outside := fun hout => hi hout.free
  cases k with
  | pending => exact absurd (h.2 i) hinside
  | running =>
    obtain ⟨holder, hholder, hothers⟩ := h
    obtain rfl : i = holder := by
      by_contra hne
      exact hinside (hothers i hne)
    exact ⟨rfl, hholder, hothers⟩
  | finished b =>
    obtain ⟨r, -, -, hall⟩ := h
    rw [(hall i).resolve_left hinside] at hi
    exact absurd trivial hi

/-- The execution. -/
theorem execute {k : CleanUp} (h : k.Fits part done) (hi : part i = .executor)
    (r : Except AppError Unit) :
    k.Fits (Function.update part i (.reporter r)) (done ++ [r]) := by
  obtain ⟨rfl, hholder, hothers⟩ := h.inHand (i := i) (by rw [hi]; exact id)
  have hdone : done = [] := by
    rcases hholder with ⟨-, hdone⟩ | ⟨r', hr', -⟩
    · exact hdone
    · rw [hi] at hr'
      cases hr'
  refine ⟨i, .inr ⟨r, Function.update_self .., by rw [hdone]; rfl⟩, fun j hne => ?_⟩
  rw [Function.update_of_ne hne]
  exact hothers j hne

/-- The outcome is noted. -/
theorem note {k : CleanUp} (h : k.Fits part done) {r : Except AppError Unit}
    (hi : part i = .reporter r) :
    (CleanUp.finished r.isOk).Fits (Function.update part i (.informed r.isOk)) done := by
  obtain ⟨-, hholder, hothers⟩ := h.inHand (i := i) (by rw [hi]; exact id)
  have hdone : done = [r] := by
    rcases hholder with ⟨hpart, -⟩ | ⟨r', hr', hdone⟩
    · rw [hi] at hpart
      cases hpart
    · rw [hi] at hr'
      cases hr'
      exact hdone
  refine ⟨r, rfl, hdone, fun j => ?_⟩
  rcases eq_or_ne j i with rfl | hne
  · exact .inr (Function.update_self ..)
  · rw [Function.update_of_ne hne]
    exact .inl (hothers j hne)

end CleanUp.Fits

end Fits

/-! ## What every step keeps -/

namespace Crowd

variable {ι σ : Type} [DecidableEq ι] {uses : ι → Use} {app : Application σ}
  {C C' : Crowd ι σ uses} {part : ι → Part} {i : ι}

/-- Whether somebody who was refused is on record. -/
def RefusedIn (uses : ι → Use) (log : List (ι × Deed)) (i : ι) : Prop :=
  (uses i).acquires = true ∧ ∃ e, (i, (⟨.init, .error e⟩ : Deed)) ∈ log

/-- Whether all keep to their parts, and the parts, the log and the controller fit together. -/
structure InStep (C : Crowd ι σ uses) (part : ι → Part) : Prop where
  minds : ∀ i, (C.rest i).Minds (uses i).acquires (uses i).Ends (part i)
  fits : C.controller.cleanUp.Fits part (executions C.log)
  told : ∀ i, told i C.log = (part i).knowledge
  refused : ∀ i, part i = .refused → RefusedIn uses C.log i
  published : C.controller.published = phases C.log
  terminated : ∀ log i, log ++ [(i, ⟨.publish .terminated, ()⟩)] <+: C.log →
    (∃ r, executions log = [r]) ∨ RefusedIn uses log i

namespace InStep

/-- In the beginning all are bystanders. -/
theorem start (uses : ι → Use) (s : σ) :
    (Crowd.start uses s).InStep fun _ => .bystander where
  minds i := minds_use (uses i)
  fits := ⟨rfl, fun _ => trivial⟩
  told _ := rfl
  refused _ h := nomatch h
  published := rfl
  terminated log i h := absurd (List.prefix_nil.1 h) (by simp)

/-- A deed by which somebody changes the part, as it is told in the deed, keeps all in step. -/
theorem deed (h : C.InStep part) {d : Deed} {left : Controller × σ}
    {rest : Procedure (uses i).Value} {m : Part}
    (hminds : rest.Minds (uses i).acquires (uses i).Ends m)
    (hfits : left.1.cleanUp.Fits (Function.update part i m)
      (executions C.log ++ d.executed?.toList))
    (htold : m.knowledge = (part i).knowledge ++ d.told?.toList)
    (hrefused : m = .refused → part i = .refused ∨
      (uses i).acquires = true ∧ ∃ e, d = ⟨.init, .error e⟩)
    (hpublished : left.1.published = C.controller.published ++ d.published?.toList)
    (hterminated : d = ⟨.publish .terminated, ()⟩ → (part i).Free ∧ part i ≠ .bystander) :
    (C.afterDeed i d left rest).InStep (Function.update part i m) where
  minds j := by
    rcases eq_or_ne j i with rfl | hne
    · simp only [afterDeed, Function.update_self]
      exact hminds
    · simp only [afterDeed, Function.update_of_ne hne]
      exact h.minds j
  fits := by
    simp only [afterDeed, executions_snoc]
    exact hfits
  told j := by
    simp only [afterDeed]
    rw [told_snoc, h.told]
    rcases eq_or_ne j i with rfl | hne
    · rw [if_pos rfl, Function.update_self, htold]
    · rw [if_neg hne.symm, List.append_nil, Function.update_of_ne hne]
  refused j hj := by
    have hrecorded : part j = .refused → RefusedIn uses (C.log ++ [(i, d)]) j :=
      fun hj => ⟨(h.refused j hj).1, (h.refused j hj).2.imp fun _ => List.mem_append_left _⟩
    rcases eq_or_ne j i with rfl | hne
    · rw [Function.update_self] at hj
      rcases hrefused hj with hwas | ⟨hacquires, e, rfl⟩
      · exact hrecorded hwas
      · exact ⟨hacquires, e, List.mem_append_right _ (List.mem_singleton.2 rfl)⟩
    · rw [Function.update_of_ne hne] at hj
      exact hrecorded hj
  published := by
    simp only [afterDeed, phases_snoc]
    rw [hpublished, h.published]
  terminated log j hlog := by
    simp only [afterDeed] at hlog
    rcases List.prefix_concat_iff.1 hlog with hlast | hlog
    · -- The deed itself is the publication, by somebody who is informed or was refused.
      obtain ⟨rfl, heq⟩ := List.append_inj' hlast rfl
      obtain ⟨rfl, rfl⟩ := Prod.mk.inj (List.singleton_inj.1 heq)
      obtain ⟨hfree, hasked⟩ := hterminated rfl
      cases hj : part j with
      | bystander => exact absurd hj hasked
      | refused => exact .inr (h.refused j hj)
      | executor | reporter =>
        rw [hj] at hfree
        exact hfree.elim
      | informed b =>
        have hb : b ∈ (part j).knowledge := by
          rw [hj]
          exact List.mem_singleton.2 rfl
        obtain ⟨r, hr, -⟩ := h.fits.of_mem_knowledge hb
        exact .inl ⟨r, hr⟩
    · exact h.terminated log j hlog

/-- A deed that tells nothing and by which the part stays as it is. -/
theorem deed_same (h : C.InStep part) {d : Deed} {left : Controller × σ}
    {rest : Procedure (uses i).Value}
    (hminds : rest.Minds (uses i).acquires (uses i).Ends (part i))
    (hcleanUp : left.1.cleanUp = C.controller.cleanUp)
    (hexecuted : d.executed? = none) (htold : d.told? = none)
    (hpublished : left.1.published = C.controller.published ++ d.published?.toList)
    (hterminated : d = ⟨.publish .terminated, ()⟩ → (part i).Free ∧ part i ≠ .bystander) :
    (C.afterDeed i d left rest).InStep part := by
  have hfits : left.1.cleanUp.Fits (Function.update part i (part i))
      (executions C.log ++ d.executed?.toList) := by
    rw [Function.update_eq_self, hcleanUp, hexecuted, Option.toList_none, List.append_nil]
    exact h.fits
  have hstep : (C.afterDeed i d left rest).InStep (Function.update part i (part i)) :=
    h.deed hminds hfits (by rw [htold, Option.toList_none, List.append_nil]) .inl hpublished
      hterminated
  rwa [Function.update_eq_self] at hstep

/-- Whoever takes the next action keeps all in step. -/
theorem act (h : C.InStep part) (hact : C.Acts app i C') : ∃ part', C'.InStep part' := by
  obtain @⟨a, next, r, ⟨c, s⟩, hrest, hreply⟩ := hact
  have hminds := h.minds i
  rw [hrest] at hminds
  cases a with
  | init =>
    obtain ⟨hacquires, hpart, hok, herror⟩ := hminds
    cases hreply with
    | performed hperform =>
      simp only [perform] at hperform
      split at hperform <;> cases hperform
      cases r with
      | ok _ =>
        exact ⟨part, h.deed_same (by rw [hpart]; exact hok) rfl rfl rfl (by simp [Deed.published?])
          (by simp)⟩
      | error e =>
        refine ⟨_, h.deed (herror e) ?_ ?_ (fun _ => .inr ⟨hacquires, e, rfl⟩)
          (by simp [Deed.published?]) (by simp)⟩
        · simp only [Deed.executed?, Option.toList_none, List.append_nil]
          exact h.fits.outside (by rw [hpart]; trivial) trivial
        · rw [hpart]
          rfl
  | claim =>
    obtain ⟨hpart, hfirst, hlater⟩ := hminds
    cases hreply with
    | performed hperform =>
      simp only [perform] at hperform
      have hfits := h.fits
      -- Nobody gets a reply while somebody has the cleanup in hand.
      split at hperform <;> cases hperform
      · next hpending =>
        rw [hpending] at hfits
        refine ⟨_, h.deed hfirst ?_ ?_ (by simp) (by simp [Deed.published?]) (by simp)⟩
        · simp only [Deed.executed?, Option.toList_none, List.append_nil]
          exact hfits.first i
        · rw [hpart]
          rfl
      · next b hfinished =>
        rw [hfinished] at hfits
        refine ⟨_, h.deed (hlater b) ?_ ?_ (by simp) (by simp [Deed.published?]) (by simp)⟩
        · simp only [Deed.executed?, Option.toList_none, List.append_nil]
          rw [hfinished]
          exact hfits.later i
        · rw [hpart]
          rfl
  | cleanUp =>
    obtain ⟨hpart, hnext⟩ := hminds
    cases hreply with
    | performed hperform =>
      simp only [perform] at hperform
      split at hperform <;> cases hperform
      refine ⟨_, h.deed (hnext r) ?_ ?_ (by simp) (by simp [Deed.published?]) (by simp)⟩
      · exact h.fits.execute hpart r
      · rw [hpart]
        rfl
  | settle b =>
    obtain ⟨⟨r', hpart, rfl⟩, hnext⟩ := hminds
    cases hreply with
    | performed hperform =>
      cases hperform
      refine ⟨_, h.deed hnext ?_ ?_ (by simp) (by simp [Deed.published?]) (by simp)⟩
      · simp only [Deed.executed?, Option.toList_none, List.append_nil]
        exact h.fits.note hpart
      · rw [hpart]
        rfl
  | publish p =>
    obtain ⟨hfree, hasked, hnext⟩ := hminds
    cases hreply with
    | performed hperform =>
      cases hperform
      refine ⟨part, h.deed_same hnext rfl rfl rfl rfl fun hd => ⟨hfree, hasked ?_⟩⟩
      cases hd
      rfl
  | await server =>
    obtain ⟨hfree, hnext⟩ := hminds
    have hleft : c = C.controller := by
      cases hreply with
      | shutDown | stopped => rfl
      | performed hperform =>
        simp only [perform] at hperform
        split at hperform
        · cases hperform
          rfl
        · split at hperform <;> cases hperform
          rfl
    subst hleft
    exact ⟨part, h.deed_same (hnext r) rfl rfl rfl (by simp [Deed.published?]) (by simp)⟩
  | trigger =>
    obtain ⟨hfree, hnext⟩ := hminds
    cases hreply with
    | performed hperform =>
      cases hperform
      exact ⟨part, h.deed_same hnext rfl rfl rfl (by simp [Deed.published?]) (by simp)⟩

/-- Whatever happens next keeps all in step. -/
theorem step (h : C.InStep part) (hstep : Step app C C') : ∃ part', C'.InStep part' := by
  cases hstep with
  | act hact => exact h.act hact
  | trigger | elsewhere =>
    exact ⟨part, h.minds, h.fits, h.told, h.refused, h.published, h.terminated⟩

/-- All keep to their parts through every run. -/
theorem of_reaches (h : C.InStep part) (hreaches : Relation.ReflTransGen (Step app) C C') :
    ∃ part', C'.InStep part' := by
  induction hreaches with
  | refl => exact ⟨part, h⟩
  | tail _ hstep ih =>
    obtain ⟨part', h'⟩ := ih
    exact h'.step hstep

/-! ### Nobody is stuck -/

/-- Who has the cleanup in hand can go on, since the application comes to an answer. -/
theorem inHand_acts (h : C.InStep part) (hreturns : ∀ s, (app.cleanUp s).1 ≠ none)
    (hi : ¬(part i).Free) : C.Executes i ∧ ∃ C', C.Acts app i C' := by
  have hminds := h.minds i
  cases hpart : part i with
  | bystander | refused | informed =>
    rw [hpart] at hi
    exact absurd trivial hi
  | executor =>
    rw [hpart] at hminds
    obtain ⟨next, hrest⟩ := hminds.executor fun x hx => hx.free
    obtain ⟨r, hr⟩ := Option.ne_none_iff_exists'.1 (hreturns C.state)
    -- The application comes to an answer, so this can be the next deed.
    have hperform : perform app .cleanUp (C.controller, C.state) =
        (.reply r, (C.controller, (app.cleanUp C.state).2)) := by
      simp only [perform]
      rw [← Prod.eta (app.cleanUp C.state), hr]
    exact ⟨.inl ⟨next, hrest⟩, _, .reply hrest (.performed hperform)⟩
  | reporter r =>
    rw [hpart] at hminds
    obtain ⟨b, next, hrest⟩ := hminds.reporter fun x r hx => hx.free
    exact ⟨.inr ⟨b, next, hrest⟩, _, .reply hrest (.performed rfl)⟩

/-- Everybody has ended or can go on, or waits for what is still to come. -/
theorem moving (h : C.InStep part) (hreturns : ∀ s, (app.cleanUp s).1 ≠ none) (i : ι) :
    C.Moves app i := by
  have hminds := h.minds i
  cases hrest : C.rest i with
  | done x => exact .ended hrest
  | act a next =>
    rw [hrest] at hminds
    cases a with
    | init =>
      cases hinit : app.init C.state with
      | mk r s =>
        cases r with
        | none => exact .gaveUp hrest (by rw [hinit])
        | some r =>
          have hperform : perform app .init (C.controller, C.state) =
              (.reply r, (C.controller, s)) := by simp only [perform, hinit]
          exact .acts (.reply hrest (.performed hperform))
    | claim =>
      cases hcleanUp : C.controller.cleanUp with
      | pending =>
        have hperform : perform app .claim (C.controller, C.state) =
            (.reply none, ({ C.controller with cleanUp := .running }, C.state)) := by
          simp only [perform, hcleanUp]
        exact .acts (.reply hrest (.performed hperform))
      | finished b =>
        have hperform : perform app .claim (C.controller, C.state) =
            (.reply (some b), (C.controller, C.state)) := by simp only [perform, hcleanUp]
        exact .acts (.reply hrest (.performed hperform))
      | running =>
        -- Somebody else has the cleanup in hand, and can go on.
        have hfits := h.fits
        rw [hcleanUp] at hfits
        obtain ⟨j, hj, -⟩ := hfits
        have hfree : ¬(part j).Free := by
          rcases hj with ⟨hj, -⟩ | ⟨r, hj, -⟩
          · rw [hj]
            exact id
          · rw [hj]
            exact id
        have hne : j ≠ i := by
          rintro rfl
          rw [hminds.1] at hfree
          exact hfree trivial
        obtain ⟨hexecutes, C', hacts⟩ := h.inHand_acts hreturns hfree
        exact .waits hrest hne hexecutes hacts
    | cleanUp =>
      obtain ⟨-, C', hacts⟩ := h.inHand_acts hreturns (i := i) (by rw [hminds.1]; exact id)
      exact .acts hacts
    | settle | publish | trigger => exact .acts (.reply hrest (.performed rfl))
    | await server =>
      cases htriggered : C.controller.triggered with
      | true => exact .acts (.reply hrest (.shutDown htriggered))
      | false =>
        cases hend : server.end? with
        | none => exact .awaits hrest hend htriggered
        | some ended =>
          have hperform : perform app (.await server) (C.controller, C.state) =
              (.reply (some ended), (C.controller, C.state)) := by simp only [perform, hend]
          exact .acts (.reply hrest (.performed hperform))

end InStep

/-! ## Every crowd -/

/-- What is seen of a crowd whose cleanup is one for all. -/
structure CleanedOnce (app : Application σ) (C : Crowd ι σ uses) : Prop where
  once : (executions C.log).length ≤ 1
  /-- Whatever anybody was told is the outcome of the one execution. -/
  agree : ∀ i, ∀ b ∈ told i C.log, ∃ r, executions C.log = [r] ∧ b = r.isOk
  /-- Who asked for the cleanup and has ended was told, and says, what came of it. -/
  observed : ∀ i x, C.rest i = .done x → (uses i).asks = true →
    ∃ r, executions C.log = [r] ∧ told i C.log = [r.isOk] ∧ (uses i).Tells x r.isOk
  published : C.controller.published = phases C.log
  /-- Termination is published after the execution; only who could not acquire what the service
      needs has nothing to wait for. -/
  terminated : ∀ log i, log ++ [(i, ⟨.publish .terminated, ()⟩)] <+: C.log →
    (∃ r, executions log = [r]) ∨ RefusedIn uses log i
  moving : ∀ i, C.Moves app i

/-- Where all keep to their parts, the cleanup is one for all. -/
theorem InStep.cleanedOnce (h : C.InStep part) (hreturns : ∀ s, (app.cleanUp s).1 ≠ none) :
    C.CleanedOnce app where
  once := h.fits.length_le_one
  agree i b hb := h.fits.of_mem_knowledge (h.told i ▸ hb)
  observed i x hdone hasks := by
    have hends := h.minds i
    rw [hdone] at hends
    obtain ⟨b, hpart, htells⟩ := Use.Ends.informed hends hasks
    have htold := h.told i
    rw [hpart] at htold
    obtain ⟨r, hr, rfl⟩ := h.fits.of_mem_knowledge (i := i) (b := b) (by
      rw [hpart]
      exact List.mem_singleton.2 rfl)
    exact ⟨r, hr, htold, htells⟩
  published := h.published
  terminated := h.terminated
  moving := h.moving hreturns

end Crowd

/-- Whoever uses a controller, in whatever way, and however what they do is mixed: the application
    cleans up once at most; whoever asks is told what came of it, and the same as everybody else,
    and an exit from serving is clean if and only if it succeeded; termination is published after
    it, and nobody is stuck. -/
theorem cleaned_up_once {ι σ : Type} [DecidableEq ι] (app : Application σ)
    (hreturns : ∀ s, (app.cleanUp s).1 ≠ none) (uses : ι → Use) (s : σ) (C : Crowd ι σ uses)
    (hreaches : Relation.ReflTransGen (Crowd.Step app) (Crowd.start uses s) C) :
    C.CleanedOnce app := by
  obtain ⟨part, hstep⟩ := (Crowd.InStep.start uses s).of_reaches hreaches
  exact hstep.cleanedOnce hreturns

/-- An application that keeps count of its cleanups, none of which succeeds. -/
def occupied : Application Nat where
  init n := (some (.ok ()), n)
  cleanUp n := (some (.error (.other "busy")), n + 1)

/-- One asks for the cleanup, one cannot listen and one serves. -/
def threeUses : Fin 3 → Use
  | 0 => .cleanUp
  | 1 => .listen 80 (.error .addressInUse)
  | 2 => .serve .endless

/-- One party asks for the cleanup, one finds its port taken and one serves. The cleanup is executed
    once, fails, and all three are told so. -/
theorem cleaned_up_once_occupied :
    ∃ C : Crowd (Fin 3) Nat threeUses,
      (∀ s, (occupied.cleanUp s).1 ≠ none) ∧
      Relation.ReflTransGen (Crowd.Step occupied) (Crowd.start threeUses 0) C ∧
      C.CleanedOnce occupied ∧ C.state = 1 ∧ (∀ i, told i C.log = [false]) ∧
      C.rest 0 = .done false ∧ C.rest 2 = .done (.ok .failed) := by
  have hreturns : ∀ s, (occupied.cleanUp s).1 ≠ none := fun _ => nofun
  -- The second and the third come to the cleanup while the first executes it.
  have hreaches : ∃ C, Relation.ReflTransGen (Crowd.Step occupied) (Crowd.start threeUses 0) C ∧
      C.state = 1 ∧ (∀ i, told i C.log = [false]) ∧
      C.rest 0 = .done false ∧ C.rest 2 = .done (.ok .failed) := by
    refine ⟨_,
      .head (.act (i := 2) (.reply rfl (.performed rfl))) <|
      .head (.act (i := 0) (.reply rfl (.performed rfl))) <|
      .head (.act (i := 1) (.reply rfl (.performed rfl))) <|
      .head (.trigger _) <|
      .head (.act (i := 2) (.reply rfl (.shutDown rfl))) <|
      .head (.act (i := 2) (.reply rfl (.performed rfl))) <|
      .head (.act (i := 0) (.reply rfl (.performed rfl))) <|
      .head (.act (i := 0) (.reply rfl (.performed rfl))) <|
      .head (.act (i := 1) (.reply rfl (.performed rfl))) <|
      .head (.act (i := 2) (.reply rfl (.performed rfl))) <|
      .head (.act (i := 1) (.reply rfl (.performed rfl))) <|
      .head (.act (i := 2) (.reply rfl (.performed rfl))) .refl,
      rfl, ?_, rfl, rfl⟩
    decide
  obtain ⟨C, hreaches, hrest⟩ := hreaches
  exact ⟨C, hreturns, hreaches, cleaned_up_once occupied hreturns threeUses 0 C hreaches, hrest⟩

end Gatehouse.Lifecycle
