import Gatehouse.Proofs.Lifecycle.Course
import Gatehouse.Service
import Gatehouse.Storage.Memory
import Gatehouse.Storage.Persistent

/-!
# The life of a service as a whole

Every procedure of a service but the one that serves goes one way, but for triggers from outside,
and that one waits in one place only. So what a whole life does can be listed, and what is seen of
it: the phases that were published, the one acquiring and the one cleanup of the application, and
how it ended. For a service of its own storage this says when the storage is opened and closed.

## Key results

- `ensures_lived`: a whole life comes to its end in order, in each of the ways it can go
- `whole_life_in_order`: every application in order, every service with its storage
- `sessions_memory` / `sessions_persistent`: what services rely on of their storage
-/

namespace Gatehouse.Lifecycle

open Procedure (Does Ensures does_done does_one ensures_await one)

variable {α σ : Type} {app : Application σ} {c : Controller} {s s' : σ} {r : Except AppError Unit}

/-! ### What each procedure does -/

/-- What is done to clean up, with what the application replied. -/
def cleaning (r : Except AppError Unit) : List Deed :=
  [⟨.claim, none⟩, ⟨.cleanUp, r⟩, ⟨.settle r.isOk, ()⟩]

/-- What is done to terminate. -/
def terminating (r : Except AppError Unit) : List Deed :=
  ⟨.publish .shuttingDown, ()⟩ :: (cleaning r ++ [⟨.publish .terminated, ()⟩])

/-- The controller after phases were published. -/
def Controller.after (c : Controller) (phases : List Phase) : Controller :=
  { c with published := c.published ++ phases }

/-- A phase is published behind those before it. -/
theorem does_publish (p : Phase) (c : Controller) (s : σ) :
    Does app (one (.publish p)) (c, s) [⟨.publish p, ()⟩] () (c.after [p], s) :=
  does_one (by rintro _ ⟨⟩) rfl

/-- A cleaning up that is still to be done is done once, and its end is noted. -/
theorem does_cleanUp (hpending : c.cleanUp = .pending) (h : app.cleanUp s = (some r, s')) :
    Does app cleanUp (c, s) (cleaning r) r.isOk ({ c with cleanUp := .finished r.isOk }, s') := by
  have hclaim : Does app (one .claim) (c, s) [⟨.claim, none⟩] none
      ({ c with cleanUp := .running }, s) :=
    does_one (by rintro _ ⟨⟩) (by simp only [perform, hpending])
  have hcleanUp : Does app (one .cleanUp) ({ c with cleanUp := .running }, s) [⟨.cleanUp, r⟩] r
      ({ c with cleanUp := .running }, s') :=
    does_one (by rintro _ ⟨⟩) (by simp only [perform, h])
  have hsettle : Does app (one (.settle r.isOk)) ({ c with cleanUp := .running }, s')
      [⟨.settle r.isOk, ()⟩] () ({ c with cleanUp := .finished r.isOk }, s') :=
    does_one (by rintro _ ⟨⟩) rfl
  refine hclaim.bind (hcleanUp.bind ?_)
  -- Success or not, the outcome is noted.
  cases r <;> exact hsettle.bind (does_done _ _)

/-- To terminate is to announce it, to clean up and to say that it is over. -/
theorem does_terminate (hpending : c.cleanUp = .pending) (h : app.cleanUp s = (some r, s')) :
    Does app terminate (c, s) (terminating r) (.ofCleanUp r.isOk)
      ({ c.after [.shuttingDown, .terminated] with cleanUp := .finished r.isOk }, s') := by
  have hstate : ({ c.after [.shuttingDown] with cleanUp := .finished r.isOk } : Controller).after
      [.terminated] =
      { c.after [.shuttingDown, .terminated] with cleanUp := .finished r.isOk } := by
    simp [Controller.after]
  rw [← hstate]
  exact (does_publish _ c s).bind ((does_cleanUp (c := c.after _) hpending h).bind
    ((does_publish _ _ s').bind (does_done _ _)))

/-- What is done to get hold of what the service needs. -/
def acquiring (r : Except AppError Unit) : List Deed :=
  [⟨.init, r⟩, ⟨.publish (if r.isOk then .initialized else .terminated), ()⟩]

/-- What the application gets hold of is published as initialized. -/
theorem does_acquire_ok (h : app.init s = (some (.ok ()), s')) :
    Does app acquire (c, s) (acquiring (.ok ())) (.ok ()) (c.after [.initialized], s') := by
  have hinit : Does app (one .init) (c, s) [⟨.init, .ok ()⟩] (.ok ()) (c, s') :=
    does_one (by rintro _ ⟨⟩) (by simp only [perform, h])
  exact hinit.bind ((does_publish _ c s').bind (does_done _ _))

/-- An application that cannot get hold of what it needs is terminated at once, without cleaning
    up. -/
theorem does_acquire_error {e : AppError} (h : app.init s = (some (.error e), s')) :
    Does app acquire (c, s) (acquiring (.error e)) (.error (.init e))
      (c.after [.terminated], s') := by
  have hinit : Does app (one .init) (c, s) [⟨.init, .error e⟩] (.error e) (c, s') :=
    does_one (by rintro _ ⟨⟩) (by simp only [perform, h])
  exact hinit.bind ((does_publish _ c s').bind (does_done _ _))

/-- Where the port cannot be bound, all is cleaned up before the error is reported. -/
theorem does_listen_error {e : SystemError} {port : Nat} (hpending : c.cleanUp = .pending)
    (h : app.cleanUp s = (some r, s')) :
    Does app (listen port (.error e)) (c, s) (terminating r)
      (.error (.listen ⟨listenAddress port, e⟩))
      ({ c.after [.shuttingDown, .terminated] with cleanUp := .finished r.isOk }, s') := by
  have hall : Does app (listen port (.error e)) (c, s) (terminating r ++ []) _ _ :=
    (does_terminate hpending h).bind (does_done _ _)
  rwa [List.append_nil] at hall

/-- What is done to serve, with how the waiting ended. -/
def serving (server : Server) (ended : Option (Except ServerError Unit))
    (r : Except AppError Unit) : List Deed :=
  ⟨.publish .serving, ()⟩ :: ⟨.await server, ended⟩ :: terminating r

/-- What serving comes to. -/
def served (ended : Option (Except ServerError Unit)) (r : Except AppError Unit) :
    Except Error Exit :=
  match ended with
  | some (.error e) => .error (.serve e)
  | _ => .ok (.ofCleanUp r.isOk)

/-- A service that comes to an end, by its server or by the trigger, is cleaned up behind it. -/
theorem ensures_serve {server : Server} {Q : List Deed → Except Error Exit → Controller × σ → Prop}
    (hends : c.triggered = true ∨ server.end? ≠ none) (hpending : c.cleanUp = .pending)
    (h : app.cleanUp s = (some r, s'))
    (hQ : ∀ ended, (∀ e, ended = some (.error e) → server = .failed e) →
      Ensures app (.done (served ended r)) (fun ds => Q (serving server ended r ++ ds))
        ({ (c.after [.serving]).after [.shuttingDown, .terminated] with
          cleanUp := .finished r.isOk }, s')) :
    Ensures app (serve server) Q (c, s) := by
  refine (does_publish .serving c s).ensures_bind (ensures_await hends fun ended hended => ?_)
  -- However the waiting ended, it is followed by the same termination.
  have hterminate := does_terminate (c := c.after [.serving]) hpending h
  match ended, hended with
  | none, hended => exact hterminate.ensures_bind (hQ _ hended)
  | some (.ok ()), hended => exact hterminate.ensures_bind (hQ _ hended)
  | some (.error e), hended => exact hterminate.ensures_bind (hQ _ hended)

/-- How the service exits, from what starting it came to. -/
def exitOf : Except Error Exit → Exit
  | .ok exit => exit
  | .error _ => .failed

/-- A whole life is a start, and a shutdown in the end. -/
theorem ensures_wholeLife {port : Nat} {bound : Except SystemError Unit} {server : Server}
    {S : Controller × σ} {Q : List Deed → Exit → Controller × σ → Prop}
    (h : Ensures app (start port bound server)
      (fun ds x S' => Q (ds ++ [⟨.trigger, ()⟩]) (exitOf x) (afterTrigger S')) S) :
    Ensures app (wholeLife port bound server) Q S := by
  refine Ensures.bind (h.mono fun ds x S' hQ => ?_)
  have htrigger : Does app (one .trigger) S' [⟨.trigger, ()⟩] () (afterTrigger S') :=
    does_one (by rintro _ ⟨⟩) rfl
  cases x with
  | ok exit => exact htrigger.ensures_bind ⟨hQ, hQ⟩
  | error e => exact htrigger.ensures_bind ⟨hQ, hQ⟩

/-! ### What is seen of a whole life -/

/-- What is seen of a service from outside. -/
inductive Sight
  | init (r : Except AppError Unit)
  | cleanUp (r : Except AppError Unit)
  | publish (p : Phase)

/-- What a deed shows. -/
def Deed.sight? : Deed → Option Sight
  | ⟨.init, r⟩ => some (.init r)
  | ⟨.cleanUp, r⟩ => some (.cleanUp r)
  | ⟨.publish p, _⟩ => some (.publish p)
  | _ => none

/-- Whether the application is seen to acquire what it needs. -/
def Sight.isInit : Sight → Bool
  | init _ => true
  | _ => false

/-- What deeds show. -/
def sights (ds : List Deed) : List Sight := ds.filterMap Deed.sight?

/-- Whether the waiting for a server ended with an error. -/
def FailedServing (ds : List Deed) : Prop := ∃ server e, ⟨.await server, some (.error e)⟩ ∈ ds

/-- A life from creation to termination, with the state of the application at its beginning and its
    end. -/
structure Lived (app : Application σ) (bound : Except SystemError Unit) (server : Server) (s : σ)
    (ds : List Deed) (exit : Exit) (c : Controller) (s' : σ) : Prop where
  phases : c.published = [.terminated] ∨
    c.published = [.initialized, .shuttingDown, .terminated] ∨
    c.published = [.initialized, .serving, .shuttingDown, .terminated]
  notAcquired : c.published = [.terminated] ↔ (app.init s).1 ≠ some (.ok ())
  notBound : c.published = [.initialized, .shuttingDown, .terminated] ↔
    (app.init s).1 = some (.ok ()) ∧ bound ≠ .ok ()
  init_once : ((sights ds).filter Sight.isInit).length = 1
  /-- A service that got what it needs cleans up between shutting down and termination, and only
      then. -/
  cleanUp_once : (app.init s).1 = some (.ok ()) → ∃ front r,
    sights ds = front ++ [.publish .shuttingDown, .cleanUp r, .publish .terminated] ∧
      ∀ r', .cleanUp r' ∉ front
  cleanUp_never : (app.init s).1 ≠ some (.ok ()) → ∀ r, .cleanUp r ∉ sights ds
  exit_clean : exit = .clean ↔ (app.init s).1 = some (.ok ()) ∧ bound = .ok () ∧
    ¬FailedServing ds ∧ (app.cleanUp (app.init s).2).1 = some (.ok ())
  failedServing : FailedServing ds → ∃ e, server = .failed e
  triggered : c.triggered = true
  /-- Nothing is done with the application but to acquire and to clean up what was acquired. -/
  application : ((app.init s).1 ≠ some (.ok ()) → s' = (app.init s).2) ∧
    ((app.init s).1 = some (.ok ()) → s' = (app.cleanUp (app.init s).2).2)

variable {bound : Except SystemError Unit} {server : Server}

/-- A life in which nothing was got hold of. -/
theorem lived_of_init_error {e : AppError} (hpublished : c.published = [])
    (h : app.init s = (some (.error e), s')) :
    Lived app bound server s (acquiring (.error e) ++ [⟨.trigger, ()⟩]) .failed
      (afterTrigger (c.after [.terminated], s')).1 s' := by
  have hsights : sights (acquiring (.error e) ++ [⟨.trigger, ()⟩]) =
      [.init (.error e), .publish .terminated] := rfl
  constructor
  case init_once => rfl
  case failedServing => simp [FailedServing, acquiring]
  all_goals simp [Controller.after, afterTrigger, hpublished, h, hsights]

/-- A life without a port. -/
theorem lived_of_not_bound {e : SystemError} {s₁ : σ} (hpublished : c.published = [])
    (hinit : app.init s = (some (.ok ()), s₁)) (hcleanUp : app.cleanUp s₁ = (some r, s')) :
    Lived app (.error e) server s (acquiring (.ok ()) ++ terminating r ++ [⟨.trigger, ()⟩]) .failed
      (afterTrigger ({ (c.after [.initialized]).after [.shuttingDown, .terminated] with
        cleanUp := .finished r.isOk }, s')).1 s' := by
  have hsights : sights (acquiring (.ok ()) ++ terminating r ++ [⟨.trigger, ()⟩]) =
      [.init (.ok ()), .publish .initialized] ++
        [.publish .shuttingDown, .cleanUp r, .publish .terminated] := rfl
  constructor
  case init_once => rfl
  case cleanUp_once => exact fun _ => ⟨_, r, hsights, by simp⟩
  case failedServing => simp [FailedServing, acquiring, terminating, cleaning]
  all_goals simp [Controller.after, afterTrigger, hpublished, hinit, hcleanUp]

/-- A serving has failed if its waiting ended with an error. -/
theorem failedServing_serving {ended : Option (Except ServerError Unit)} :
    FailedServing (acquiring (.ok ()) ++ serving server ended r ++ [⟨.trigger, ()⟩]) ↔
      ∃ e, ended = some (.error e) := by
  constructor
  · rintro ⟨server', e, hmem⟩
    -- There is no other waiting than the one for the server.
    simp [acquiring, serving, terminating, cleaning] at hmem
    obtain ⟨rfl, hended⟩ := hmem
    exact ⟨e, hended.symm⟩
  · rintro ⟨e, rfl⟩
    exact ⟨server, e, by simp [serving]⟩

/-- A life in which requests were served. -/
theorem lived_of_served {ended : Option (Except ServerError Unit)} {s₁ : σ}
    (hpublished : c.published = []) (hinit : app.init s = (some (.ok ()), s₁))
    (hcleanUp : app.cleanUp s₁ = (some r, s'))
    (hended : ∀ e, ended = some (.error e) → server = .failed e) :
    Lived app (.ok ()) server s (acquiring (.ok ()) ++ serving server ended r ++ [⟨.trigger, ()⟩])
      (exitOf (served ended r))
      (afterTrigger ({ ((c.after [.initialized]).after [.serving]).after
        [.shuttingDown, .terminated] with cleanUp := .finished r.isOk }, s')).1 s' := by
  have hsights : sights (acquiring (.ok ()) ++ serving server ended r ++ [⟨.trigger, ()⟩]) =
      [.init (.ok ()), .publish .initialized, .publish .serving] ++
        [.publish .shuttingDown, .cleanUp r, .publish .terminated] := rfl
  constructor
  case init_once => rfl
  case cleanUp_once => exact fun _ => ⟨_, r, hsights, by simp⟩
  case failedServing =>
    rintro hfailed
    obtain ⟨e, he⟩ := failedServing_serving.1 hfailed
    exact ⟨e, hended e he⟩
  case exit_clean =>
    rw [failedServing_serving, hinit, hcleanUp]
    -- A serving error is a failure, and otherwise the cleanup decides.
    match ended, r with
    | some (.error e), r => simp [served, exitOf]
    | none, .ok () | some (.ok ()), .ok () =>
      simp [served, exitOf, Exit.ofCleanUp, Except.isOk, Except.toBool]
    | none, .error e | some (.ok ()), .error e =>
      simp [served, exitOf, Exit.ofCleanUp, Except.isOk, Except.toBool]
  all_goals simp [Controller.after, afterTrigger, hpublished, hinit, hcleanUp]

/-! ### Every whole life -/

/-- Whether an application comes to an answer, when it acquires what it needs and when it releases
    what it acquired. -/
def Application.Settles (app : Application σ) (s : σ) : Prop :=
  (app.init s).1 ≠ none ∧
    ((app.init s).1 = some (.ok ()) → (app.cleanUp (app.init s).2).1 ≠ none)

/-- However a run goes, it ends, and it is a life. -/
theorem ensures_lived {port : Nat} (hsettles : app.Settles s) (hpublished : c.published = [])
    (hpending : c.cleanUp = .pending) (hends : c.triggered = true ∨ server.end? ≠ none) :
    Ensures app (wholeLife port bound server) (fun ds exit S' =>
      Lived app bound server s ds exit S'.1 S'.2 ∧ ⟨.trigger, ()⟩ ∈ ds) (c, s) := by
  refine ensures_wholeLife ?_
  -- The last deed is the trigger, whatever came before it.
  have hlast : ∀ ds : List Deed, (⟨.trigger, ()⟩ : Deed) ∈ ds ++ [⟨.trigger, ()⟩] := fun ds =>
    List.mem_append_right ds List.mem_cons_self
  obtain ⟨hinit, hcleanUp⟩ := hsettles
  match hi : app.init s, hinit with
  | (some (.error e), s₁), _ =>
    have hlived : Lived app bound server s _ _ _ _ := lived_of_init_error hpublished hi
    exact (does_acquire_error hi).ensures_bind
      ⟨⟨hlived, hlast _⟩, ⟨hlived, hlast _⟩⟩
  | (some (.ok ()), s₁), _ =>
    rw [hi] at hcleanUp
    obtain ⟨r, hr⟩ := Option.ne_none_iff_exists'.1 (hcleanUp rfl)
    have hc : app.cleanUp s₁ = (some r, (app.cleanUp s₁).2) := Prod.ext hr rfl
    refine (does_acquire_ok hi).ensures_bind ?_
    cases bound with
    | error e =>
      have hlived : Lived app (.error e) server s _ _ _ _ := lived_of_not_bound hpublished hi hc
      exact (does_listen_error (c := c.after [.initialized]) hpending hc).ensures_bind
        ⟨⟨hlived, hlast _⟩, ⟨hlived, hlast _⟩⟩
    | ok _ =>
      refine ensures_serve (c := c.after [.initialized]) hends hpending hc fun ended hended => ?_
      have hlived := lived_of_served hpublished hi hc hended
      exact ⟨⟨hlived, hlast _⟩, ⟨hlived, hlast _⟩⟩

/-- The controller of a service that was not started yet, and the state of its application. -/
def unstarted (s : σ) : Controller × σ := ({}, s)

section Way

variable {port : Nat} {ds : List Deed} {rest : Procedure Exit}

/-- A whole life comes to its end once the shutdown is triggered or the server has an end. -/
theorem Reaches.exists_finished
    (hway : Reaches app (wholeLife port bound server) (unstarted s) ds rest (c, s'))
    (hsettles : app.Settles s) (hends : c.triggered = true ∨ server.end? ≠ none) :
    ∃ exit, (rest.run app (c, s')).1 = .finished exit := by
  rcases hends with htriggered | hend
  · -- What was done can be done with the shutdown triggered from the beginning.
    have hrest := hway.of_trigger.ensures
      (ensures_lived (c := (afterTrigger (unstarted s)).1) hsettles rfl rfl (.inl rfl))
    rw [afterTrigger_of_triggered htriggered] at hrest
    exact hrest.exists_finished
  · exact (hway.ensures (ensures_lived hsettles rfl rfl (.inr hend))).exists_finished

/-- Whoever reaches the end of a run has lived. -/
theorem Reaches.lived {exit : Exit}
    (hway : Reaches app (wholeLife port bound server) (unstarted s) ds (.done exit) (c, s'))
    (hsettles : app.Settles s) : Lived app bound server s ds exit c s' := by
  -- What is ensured of the triggered way is about the controller at hand, which is triggered too.
  obtain ⟨hlived, hmem⟩ := (hway.of_trigger.ensures
    (ensures_lived (c := (afterTrigger (unstarted s)).1) hsettles rfl rfl (.inl rfl))).1
  rw [List.append_nil] at hlived hmem
  rwa [afterTrigger_of_triggered (hway.triggered hmem)] at hlived

end Way

/-! ### Services -/

open Storage (Backend Disk Failure Memory Persistent fail)

/-- What a service relies on of its storage: opening and closing take turns, and they come to an
    answer. -/
structure Sessions (τ : Type) [Backend τ] : Prop where
  open_isOpen : ∀ s : τ, Backend.isOpen s = true →
    Backend.call .openStore s = (fail .alreadyOpen, s)
  open_ok : ∀ s s' : τ, Backend.call .openStore s = (.ok (), s') → Backend.isOpen s' = true
  open_error : ∀ (s s' : τ) (f : Failure), Backend.call .openStore s = (.error f, s') →
    Backend.isOpen s' = Backend.isOpen s ∧ ∃ e, f = .error e
  close_isOpen : ∀ s : τ, Backend.isOpen s = true →
    ∃ s', Backend.call .closeStore s = (.ok (), s') ∧ Backend.isOpen s' = false

/-- Storages in memory can be opened and closed. -/
theorem sessions_memory : Sessions Memory := by
  constructor
  · rintro ⟨_, tables⟩ rfl
    rfl
  · intro m m' h
    simp only [Backend.call, Memory.call] at h
    split at h <;> cases h
    rfl
  · intro m m' f h
    simp only [Backend.call, Memory.call] at h
    split at h <;> cases h
    exact ⟨rfl, _, rfl⟩
  · rintro ⟨_, tables⟩ rfl
    exact ⟨_, rfl, rfl⟩

/-- Storages in a document can be opened and closed, whatever the disk does. -/
theorem sessions_persistent (δ : Type) [Disk δ] : Sessions (Persistent δ) := by
  constructor
  · rintro ⟨⟨tables⟩, disk⟩ h
    obtain ⟨t, rfl⟩ := Option.isSome_iff_exists.1 h
    rfl
  · -- The handle gets its tables in the one case that succeeds.
    intro p p' h
    simp only [Backend.call, Persistent.call, Storage.Handle.call, Storage.Handle.openWith] at h
    split at h
    · cases h
    · split at h
      · cases h
      · split at h <;> cases h
        rfl
  · intro p p' f h
    simp only [Backend.call, Persistent.call, Storage.Handle.call, Storage.Handle.openWith] at h
    split at h
    · cases h
      exact ⟨rfl, _, rfl⟩
    · split at h
      · cases h
        exact ⟨rfl, _, rfl⟩
      · split at h <;> cases h
        exact ⟨rfl, _, rfl⟩
  · rintro ⟨⟨tables⟩, disk⟩ h
    obtain ⟨t, rfl⟩ := Option.isSome_iff_exists.1 h
    exact ⟨_, rfl, rfl⟩

section Service

variable {τ : Type} [Backend τ] {t t' : τ} {e : Storage.Error}

/-- The service has what it needs when its storage is open. -/
theorem init_application_ok (h : Backend.call .openStore t = (.ok (), t')) :
    Service.application.init t = (some (.ok ()), t') := by
  simp only [Service.application, Service.acquire, Storage.Script.call, Storage.Script.run, h,
    Service.outcome]
  rfl

/-- The service fails to begin as its storage fails to open. -/
theorem init_application_error (h : Backend.call .openStore t = (fail e, t')) :
    Service.application.init t = (some (.error (.storage e)), t') := by
  simp only [Service.application, Service.acquire, Storage.Script.call, Storage.Script.run, h,
    fail, Service.outcome]
  rfl

/-- The service is cleaned up when its storage is closed. -/
theorem cleanUp_application_ok (h : Backend.call .closeStore t = (.ok (), t')) :
    Service.application.cleanUp t = (some (.ok ()), t') := by
  simp only [Service.application, Service.release, Storage.Script.call, Storage.Script.run, h,
    Service.outcome]
  rfl

/-- A life of a service with its storage. -/
structure Hosted (bound : Except SystemError Unit) (t : τ) (ds : List Deed) (exit : Exit)
    (c : Controller) (t' : τ) : Prop where
  isOpen : Backend.isOpen t' = Backend.isOpen t
  /-- Storage that somebody has opened before is left alone. -/
  of_isOpen : Backend.isOpen t = true →
    t' = t ∧ exit = .failed ∧ c.published = [.terminated]
  of_open_error : ∀ t₁ e, Backend.call .openStore t = (fail e, t₁) →
    t' = t₁ ∧ exit = .failed ∧ c.published = [.terminated]
  /-- Storage that was opened is closed, and not touched in between. -/
  of_open : ∀ t₁, Backend.call .openStore t = (.ok (), t₁) →
    Backend.call .closeStore t₁ = (.ok (), t') ∧ Backend.isOpen t' = false ∧
      (exit = .clean ↔ bound = .ok () ∧ ¬FailedServing ds)

/-- Opening either succeeds or is refused, and what was opened can be closed. -/
theorem Sessions.open_cases (hsessions : Sessions τ) (t : τ) :
    (∃ e t₁, Backend.call .openStore t = (fail e, t₁) ∧
      Backend.isOpen t₁ = Backend.isOpen t) ∨
    ∃ t₁ t₂, Backend.isOpen t = false ∧ Backend.call .openStore t = (.ok (), t₁) ∧
      Backend.call .closeStore t₁ = (.ok (), t₂) ∧ Backend.isOpen t₂ = false := by
  match h : Backend.call .openStore t with
  | (.error failure, t₁) =>
    obtain ⟨hopen, e, rfl⟩ := hsessions.open_error t t₁ failure h
    exact .inl ⟨e, t₁, rfl, hopen⟩
  | (.ok (), t₁) =>
    obtain ⟨t₂, hclose, hclosed⟩ := hsessions.close_isOpen t₁ (hsessions.open_ok t t₁ h)
    cases hwas : Backend.isOpen t with
    | false => exact .inr ⟨t₁, t₂, rfl, rfl, hclose, hclosed⟩
    | true =>
      rw [hsessions.open_isOpen t hwas] at h
      cases h

/-- The service comes to an answer when it begins and when it is cleaned up. -/
theorem settles_application (hsessions : Sessions τ) (t : τ) :
    Service.application.Settles t := by
  obtain ⟨e, t₁, h, -⟩ | ⟨t₁, t₂, -, h, hclose, -⟩ := hsessions.open_cases t
  · rw [Application.Settles, init_application_error h]
    exact ⟨nofun, nofun⟩
  · rw [Application.Settles, init_application_ok h, cleanUp_application_ok hclose]
    exact ⟨nofun, nofun⟩

/-- A life of the service is one of its storage: opened at most once, and closed once if it was
    opened. -/
theorem Lived.hosted {ds : List Deed} {exit : Exit} (hsessions : Sessions τ)
    (h : Lived Service.application bound server t ds exit c t') : Hosted bound t ds exit c t' := by
  obtain ⟨e, t₁, hopen, hsame⟩ | ⟨t₁, t₂, hwas, hopen, hclose, hclosed⟩ := hsessions.open_cases t
  · -- What could not be opened is left as the attempt left it.
    have hinit : (Service.application.init t).1 ≠ some (.ok ()) := by
      rw [init_application_error hopen]
      nofun
    have ht : t' = t₁ := by rw [h.application.1 hinit, init_application_error hopen]
    have hexit : exit = .failed := by
      cases exit with
      | failed => rfl
      | clean => exact absurd (h.exit_clean.1 rfl).1 hinit
    have hpublished := h.notAcquired.2 hinit
    refine ⟨ht ▸ hsame, fun hopen' => ?_, fun t₁' e' hopen' => ?_, fun t₁' hopen' => ?_⟩
    · rw [hsessions.open_isOpen t hopen'] at hopen
      cases hopen
      exact ⟨ht, hexit, hpublished⟩
    · rw [hopen'] at hopen
      cases hopen
      exact ⟨ht, hexit, hpublished⟩
    · rw [hopen'] at hopen
      cases hopen
  · -- What was opened is closed again, and this succeeds.
    have hinit : (Service.application.init t).1 = some (.ok ()) := by
      rw [init_application_ok hopen]
    have ht : t' = t₂ := by
      rw [h.application.2 hinit, init_application_ok hopen, cleanUp_application_ok hclose]
    subst ht
    refine ⟨hclosed.trans hwas.symm, fun hopen' => ?_, fun t₁' e' hopen' => ?_,
      fun t₁' hopen' => ?_⟩
    · rw [hwas] at hopen'
      cases hopen'
    · rw [hopen'] at hopen
      cases hopen
    · rw [hopen'] at hopen
      cases hopen
      refine ⟨hclose, hclosed, h.exit_clean.trans ?_⟩
      rw [init_application_ok hopen', cleanUp_application_ok hclose]
      simp

end Service

/-- However the life of a service goes and wherever the shutdown is triggered: once the shutdown is
    triggered or the server has an end it comes to its end, and at its end everything was done in
    order and once. A service closes the storage that it opened and no other. Where nobody else
    acts, what the procedures do when they are run is one of these ways. -/
theorem whole_life_in_order :
    (∀ {σ : Type} (app : Application σ) (port : Nat) (bound : Except SystemError Unit)
        (server : Server) (s : σ), app.Settles s →
      ∀ (ds : List Deed) (rest : Procedure Exit) (c : Controller) (s' : σ),
        Reaches app (wholeLife port bound server) (unstarted s) ds rest (c, s') →
        ((c.triggered = true ∨ server.end? ≠ none) →
          ∃ exit, (rest.run app (c, s')).1 = .finished exit) ∧
        ∀ exit, rest = .done exit → Lived app bound server s ds exit c s') ∧
    (∀ {τ : Type} [Backend τ], Sessions τ → ∀ (t : τ), Service.application.Settles t ∧
      ∀ (port : Nat) (bound : Except SystemError Unit) (server : Server) (ds : List Deed)
        (exit : Exit) (c : Controller) (t' : τ),
        Reaches Service.application (wholeLife port bound server) (unstarted t) ds (.done exit)
          (c, t') → Hosted bound t ds exit c t') ∧
    (Sessions Memory ∧ ∀ (δ : Type) [Disk δ], Sessions (Persistent δ)) ∧
    ∀ {σ : Type} (app : Application σ) (p : Procedure Exit) (S S' : Controller × σ) (exit : Exit),
      p.run app S = (.finished exit, S') → ∃ ds, Reaches app p S ds (.done exit) S' := by
  refine ⟨fun app port bound server s hsettles ds rest c s' hway =>
      ⟨hway.exists_finished hsettles, ?_⟩,
    fun hsessions t => ⟨settles_application hsessions t, ?_⟩,
    ⟨sessions_memory, sessions_persistent⟩,
    fun app p S S' exit hrun => Reaches.of_run (.inr ⟨exit, rfl, hrun⟩)⟩
  · rintro exit rfl
    exact hway.lived hsettles
  · intro port bound server ds exit c t' hway
    exact (hway.lived (settles_application hsessions t)).hosted hsessions

/-- A server that would serve for ever is stopped by the trigger, on a storage in memory. -/
theorem whole_life_in_order_memory :
    ∃ (ds : List Deed) (c : Controller),
      Reaches Service.application (wholeLife 8080 (.ok ()) .endless) (unstarted ({} : Memory)) ds
        (.done .clean) (c, {}) ∧
      Lived Service.application (.ok ()) .endless ({} : Memory) ds .clean c {} ∧
      Hosted (.ok ()) ({} : Memory) ds .clean c {} ∧
      c.published = [.initialized, .serving, .shuttingDown, .terminated] := by
  -- The shutdown is triggered while the service is serving.
  have hway : Reaches Service.application (wholeLife 8080 (.ok ()) .endless)
      (unstarted ({} : Memory))
      (acquiring (.ok ()) ++ serving .endless none (.ok ()) ++ [⟨.trigger, ()⟩]) (.done .clean)
      (⟨[.initialized, .serving, .shuttingDown, .terminated], .finished true, true⟩, {}) :=
    .act (.performed rfl) <| .act (.performed rfl) <| .act (.performed rfl) <| .trigger <|
      .act (.performed rfl) <| .act (.performed rfl) <| .act (.performed rfl) <|
      .act (.performed rfl) <| .act (.performed rfl) <| .act (.performed rfl) <|
      .act (.performed rfl) <| .nil _ _
  obtain ⟨hsettles, hhosted⟩ := whole_life_in_order.2.1 whole_life_in_order.2.2.1.1 ({} : Memory)
  exact ⟨_, _, hway, (whole_life_in_order.1 _ _ _ _ _ hsettles _ _ _ _ hway).2 _ rfl,
    hhosted _ _ _ _ _ _ _ hway, rfl⟩

end Gatehouse.Lifecycle
