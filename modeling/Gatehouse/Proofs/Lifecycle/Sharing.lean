import Gatehouse.Proofs.Account.Session
import Gatehouse.Proofs.Storage.Ownership
import Mathlib.Logic.Relation

/-!
# A service and its administrators share a storage

A service that lives its whole life and any number of administrative operations go on at the same
time, on one storage. Each call of theirs is one step, and so is each action of the service; what
lies behind the storage may change in between, and a shutdown may come at any point. None of them
makes a call where it may not be made, so the storage is always owned by the one that is inside.

## Key results

- `proper_script` / `proper_wholeLife`: operations and services call only where they may
- `InPlace.step`: what each step of a scene keeps
- `storage_is_owned`: every scene, at every point and at its end
-/

namespace Gatehouse

open Storage (Backend Call Course Disk Exchange InSession Memory Orderly Owned Persistent Result
  Script Stage fail own)

/-! ### Scripts -/

namespace Storage

/-- Whether a script makes every call where it may be made and does not end inside, whatever its
    calls result in. -/
def Script.Proper {α : Type} : Script α → Stage → Prop
  | .done _, s => s ≠ .inside
  | .panicked, s => s ≠ .inside
  | .ask c next, s => s = c.stage ∧ ∀ r, Proper (next r) (Exchange.stage ⟨c, r⟩)

/-- A script that has come to its end. -/
def Script.Ended {α : Type} : Script α → Prop
  | .ask _ _ => False
  | _ => True

/-- Who has come to the end is not inside a session. -/
theorem Script.Proper.of_ended {α : Type} {p : Script α} {s : Stage} (h : p.Proper s)
    (hended : p.Ended) : s ≠ .inside := by
  cases p with
  | done | panicked => exact h
  | ask => exact hended.elim

/-- A call for data is made inside, and it is left inside. -/
theorem Call.stage_of_data {c : Call} (hopen : c ≠ .openStore) (hclose : c ≠ .closeStore) :
    c.stage = .inside ∧ ∀ r, Exchange.stage ⟨c, r⟩ = .inside := by
  cases c with
  | openStore => exact absurd rfl hopen
  | closeStore => exact absurd rfl hclose
  | put | get | list | delete => exact ⟨rfl, fun _ => rfl⟩

end Storage

namespace Account

variable {α : Type}

/-- Nothing is called behind the end of a session. -/
theorem proper_joinClose (result : AdminResult α) (closed : Result Unit) :
    (joinClose result closed).Proper .over := by
  unfold joinClose
  split <;> rintro ⟨⟩

/-- A session opens, makes its call and closes. -/
theorem proper_session {c : Call} (hopen : c ≠ .openStore) (hclose : c ≠ .closeStore)
    (read : c.Reply → AdminResult α) : (session c read).Proper .before := by
  obtain ⟨hinside, hstays⟩ := Call.stage_of_data hopen hclose
  refine ⟨rfl, fun opened => ?_⟩
  rcases opened with (e | _) | ⟨⟨⟩⟩
  · rintro ⟨⟩
  · rintro ⟨⟩
  · refine ⟨hinside.symm, fun r => ?_⟩
    rw [hstays]
    -- Whatever the call resulted in, what is left is to close the backend.
    rcases r with (e | _) | reply
    · exact ⟨rfl, fun closed => proper_joinClose _ closed⟩
    · exact ⟨rfl, fun _ => by rintro ⟨⟩⟩
    · exact ⟨rfl, fun closed => proper_joinClose _ closed⟩

/-- An operation that is refused for its email address makes no call. -/
theorem proper_requireEmail {p : Script (AdminResult α)} (h : p.Proper .before) (email : String) :
    (requireEmail email p).Proper .before := by
  rw [requireEmail]
  split
  · rintro ⟨⟩
  · exact h

/-- Every operation opens first and closes last. -/
theorem proper_script (o : Operation) : o.script.Proper .before := by
  cases o with
  | list => exact proper_session (by rintro ⟨⟩) (by rintro ⟨⟩) _
  | create | display | delete =>
    exact proper_requireEmail (proper_session (by rintro ⟨⟩) (by rintro ⟨⟩) _) _

end Account

namespace Lifecycle

open Account (AdminResult Operation proper_script)

/-! ### Procedures -/

namespace Procedure

variable {α β : Type}

/-- Whether a procedure of a service calls its storage only where it may, and ends as wanted. The
    cleanup is what closes the storage, so this depends on how far the cleanup is. -/
def Proper (Q : α → Stage → CleanUp → Prop) : Procedure α → Stage → CleanUp → Prop
  | done x, s, k => Q x s k
  | act .init next, s, k =>
    s = .before ∧ Proper Q (next (.ok ())) .inside k ∧ ∀ e, Proper Q (next (.error e)) .over k
  | act .claim next, s, k =>
    (k = .pending → Proper Q (next none) s .running) ∧
      ∀ b, k = .finished b → Proper Q (next (some b)) s k
  | act .cleanUp next, s, k => s = .inside ∧ ∀ r, Proper Q (next r) .over k
  | act (.settle b) next, s, _ => Proper Q (next ()) s (.finished b)
  | act (.publish _) next, s, k => Proper Q (next ()) s k
  | act (.await _) next, s, k => ∀ r, Proper Q (next r) s k
  | act .trigger next, s, k => Proper Q (next ()) s k

/-- Two procedures in a row are proper if the second one is wherever the first one ends. -/
theorem Proper.bind {Q : α → Stage → CleanUp → Prop} {t : Procedure β} {f : β → Procedure α}
    {s : Stage} {k : CleanUp} (h : Proper (fun b => Proper Q (f b)) t s k) :
    Proper Q (t.bind f) s k := by
  induction t generalizing s k with
  | done b => exact h
  | act a next ih =>
    cases a with
    | init => exact ⟨h.1, ih _ h.2.1, fun e => ih _ (h.2.2 e)⟩
    | claim => exact ⟨fun hk => ih _ (h.1 hk), fun b hk => ih _ (h.2 b hk)⟩
    | cleanUp => exact ⟨h.1, fun r => ih r (h.2 r)⟩
    | settle | publish | trigger => exact ih _ h
    | await => exact fun r => ih r (h r)

end Procedure

open Procedure (Proper)

variable {α : Type}

/-- The first cleanup closes the storage. -/
theorem proper_cleanUp {Q : Bool → Stage → CleanUp → Prop} (hQ : ∀ b k, Q b .over k) :
    Proper Q cleanUp .inside .pending :=
  ⟨fun _ => ⟨rfl, fun _ => hQ _ _⟩, nofun⟩

/-- Terminating cleans up inside the session and ends it. -/
theorem proper_terminate {Q : Exit → Stage → CleanUp → Prop} (hQ : ∀ x k, Q x .over k) :
    Proper Q terminate .inside .pending :=
  Proper.bind (t := cleanUp) (proper_cleanUp fun _ _ => hQ _ _)

/-- Serving goes on inside the session and ends with its end. -/
theorem proper_serve {server : Server} {Q : Except Error Exit → Stage → CleanUp → Prop}
    (hQ : ∀ x k, Q x .over k) : Proper Q (serve server) .inside .pending := by
  intro ended
  match ended with
  | none | some (.ok ()) | some (.error e) => exact Proper.bind (proper_terminate fun _ _ => hQ _ _)

/-- The service begins before its session and ends behind it. -/
theorem proper_start {port : Nat} {bound : Except SystemError Unit} {server : Server}
    {Q : Except Error Exit → Stage → CleanUp → Prop} (hQ : ∀ x k, Q x .over k) :
    Proper Q (start port bound server) .before .pending := by
  refine ⟨rfl, ?_, fun e => hQ _ _⟩
  cases bound with
  | error e => exact Proper.bind (Proper.bind (proper_terminate fun _ _ => hQ _ _))
  | ok _ => exact proper_serve hQ

/-- A service calls its storage only where it may, and is not inside when it has ended. -/
theorem proper_wholeLife (port : Nat) (bound : Except SystemError Unit) (server : Server) :
    Proper (fun _ s _ => s ≠ .inside) (wholeLife port bound server) .before .pending :=
  Proper.bind (proper_start fun _ _ => nofun)

/-! ### Actions of a service -/

section Replies

variable {τ : Type} [Backend τ] {c c' : Controller} {t t' : τ}

/-- What passes between a service and its storage in an action. -/
def Action.exchanges (a : Action) (t : τ) : List Exchange :=
  match a with
  | .init => Service.acquire.exchanges t
  | .cleanUp => Service.release.exchanges t
  | _ => []

/-- The service begins by opening its storage. -/
theorem exchanges_init (t : τ) :
    Action.init.exchanges t = [⟨.openStore, (Backend.call .openStore t).1⟩] := by
  simp only [Action.exchanges, Service.acquire, Script.call, Script.exchanges]
  split <;> rfl

/-- The service cleans up by closing its storage. -/
theorem exchanges_cleanUp (t : τ) :
    Action.cleanUp.exchanges t = [⟨.closeStore, (Backend.call .closeStore t).1⟩] := by
  simp only [Action.exchanges, Service.release, Script.call, Script.exchanges]
  split <;> rfl

/-- A service gets hold of its storage by opening it. -/
theorem Replies.init_cases (horderly : Orderly τ) {r : Except AppError Unit}
    (h : Replies Service.application .init (c, t) r (c', t')) :
    c' = c ∧ ((∃ e, r = .error e ∧ ∃ e', Backend.call .openStore t = (fail e', t')) ∨
      r = .ok () ∧ Backend.call .openStore t = (.ok (), t')) := by
  cases h with
  | performed h =>
    obtain ⟨e, t₁, hopen, -⟩ | ⟨t₁, -, -, hopen, -⟩ := horderly.open_cases t
    · rw [perform, init_application_error hopen] at h
      cases h
      exact ⟨rfl, .inl ⟨_, rfl, e, hopen⟩⟩
    · rw [perform, init_application_ok hopen] at h
      cases h
      exact ⟨rfl, .inr ⟨rfl, hopen⟩⟩

/-- A service releases its storage by closing it. -/
theorem Replies.cleanUp_open (horderly : Orderly τ) (hopen : Backend.isOpen t = true)
    {r : Except AppError Unit}
    (h : Replies Service.application .cleanUp (c, t) r (c', t')) :
    c' = c ∧ Backend.call .closeStore t = (.ok (), t') := by
  cases h with
  | performed h =>
    obtain ⟨t₁, hclose, -⟩ := horderly.close_isOpen t hopen
    rw [perform, cleanUp_application_ok hclose] at h
    cases h
    exact ⟨rfl, hclose⟩

/-- Whoever waits for a server leaves everything as it is. -/
theorem Replies.await_state {server : Server} {r : Option (Except ServerError Unit)}
    (h : Replies Service.application (.await server) (c, t) r (c', t')) : c' = c ∧ t' = t := by
  cases h with
  | shutDown | stopped => exact ⟨rfl, rfl⟩
  | performed h =>
    simp only [perform] at h
    split at h
    · cases h
      exact ⟨rfl, rfl⟩
    · split at h <;> cases h
      exact ⟨rfl, rfl⟩

end Replies

/-! ### Scenes -/

/-- A storage with those who share it: the service, with its controller and what is left of its
    life, and administrative operations, with what is left of them. The log says who exchanged what
    with the storage; nobody stands for the service. -/
structure Scene (ι τ : Type) (ops : ι → Operation) where
  storage : τ
  controller : Controller := {}
  service : Procedure Exit
  admins : (i : ι) → Script (AdminResult (ops i).Value)
  log : List (Option ι × Exchange) := []

namespace Scene

variable {ι τ : Type} [DecidableEq ι] [Backend τ] {ops : ι → Operation}

/-- The scene in which nobody has begun. -/
def start (ops : ι → Operation) (port : Nat) (bound : Except SystemError Unit) (server : Server)
    (t : τ) : Scene ι τ ops :=
  { storage := t, service := wholeLife port bound server, admins := fun i => (ops i).script }

/-- The scene after a call of an operation that goes on with a script. -/
def afterCall (S : Scene ι τ ops) (i : ι) (c : Call) (rest : Script (AdminResult (ops i).Value)) :
    Scene ι τ ops :=
  { S with
    storage := (Backend.call c S.storage).2
    admins := Function.update S.admins i rest
    log := S.log ++ [(some i, ⟨c, (Backend.call c S.storage).1⟩)] }

/-- The scene after an action of the service that leaves a state and goes on with a procedure. -/
def afterAction (S : Scene ι τ ops) (a : Action) (left : Controller × τ) (rest : Procedure Exit) :
    Scene ι τ ops :=
  { S with
    storage := left.2
    controller := left.1
    service := rest
    log := S.log ++ (a.exchanges S.storage).map fun e => (none, e) }

/-- What can happen next. -/
inductive Step : Scene ι τ ops → Scene ι τ ops → Prop
  /-- An operation makes its next call. -/
  | admin {S : Scene ι τ ops} {i : ι} {c : Call}
    {next : Result c.Reply → Script (AdminResult (ops i).Value)} (h : S.admins i = .ask c next) :
    Step S (S.afterCall i c (next (Backend.call c S.storage).1))
  /-- The service takes its next action. -/
  | service {S : Scene ι τ ops} {a : Action} {next : a.Reply → Procedure Exit} {r : a.Reply}
    {left : Controller × τ} (h : S.service = .act a next)
    (hreply : Replies Service.application a (S.controller, S.storage) r left) :
    Step S (S.afterAction a left (next r))
  /-- The shutdown is triggered from outside. -/
  | trigger (S : Scene ι τ ops) :
    Step S { S with controller := { S.controller with triggered := true } }
  /-- What lies behind the storage changes; it is neither opened nor closed by this. -/
  | elsewhere (S : Scene ι τ ops) (t : τ) (h : Backend.isOpen t = Backend.isOpen S.storage) :
    Step S { S with storage := t }

/-- Whether all have come to their end. -/
def Ended (S : Scene ι τ ops) : Prop := (∃ exit, S.service = .done exit) ∧ ∀ i, (S.admins i).Ended

/-! ### What each step keeps -/

/-- Whether all are in place: the storage is owned, and whatever is left to do is proper. -/
structure InPlace (S : Scene ι τ ops) (stage : Option ι → Stage) : Prop where
  owned : Owned S.storage S.log stage
  admins : ∀ i, (S.admins i).Proper (stage (some i))
  service : S.service.Proper (fun _ s _ => s ≠ .inside) (stage none) S.controller.cleanUp

namespace InPlace

/-- In the beginning nobody has made a call and all are in place. -/
theorem start {port : Nat} {bound : Except SystemError Unit} {server : Server} {t : τ}
    (h : Backend.isOpen t = false) :
    InPlace (Scene.start ops port bound server t) fun _ => .before where
  owned := .start h
  admins i := proper_script (ops i)
  service := proper_wholeLife port bound server

variable {S S' : Scene ι τ ops} {stage : Option ι → Stage}

/-- When one operation makes its next call, everybody is in place still. -/
theorem afterCall (horderly : Orderly τ) (h : S.InPlace stage) {i : ι} {c : Call}
    {next : Result c.Reply → Script (AdminResult (ops i).Value)} (hi : S.admins i = .ask c next) :
    InPlace (S.afterCall i c (next (Backend.call c S.storage).1))
      (Function.update stage (some i) (Exchange.stage ⟨c, (Backend.call c S.storage).1⟩)) := by
  have hproper := h.admins i
  rw [hi] at hproper
  obtain ⟨hstage, hnext⟩ := hproper
  refine ⟨h.owned.call horderly hstage, fun j => ?_, ?_⟩
  · simp only [Scene.afterCall]
    rcases eq_or_ne j i with rfl | hne
    · rw [Function.update_self, Function.update_self]
      exact hnext _
    · rw [Function.update_of_ne hne, Function.update_of_ne fun heq => hne (Option.some.inj heq)]
      exact h.admins j
  · rw [Function.update_of_ne (Option.some_ne_none i).symm]
    exact h.service

/-- An action that calls the storage once leaves all in place. -/
theorem afterAction_of_call (horderly : Orderly τ) (h : S.InPlace stage) {a : Action} {c : Call}
    (hstage : stage none = c.stage)
    (hexchanges : a.exchanges S.storage = [⟨c, (Backend.call c S.storage).1⟩])
    {left : Controller × τ} (hleft : left.2 = (Backend.call c S.storage).2) {rest : Procedure Exit}
    (hrest : rest.Proper (fun _ s _ => s ≠ .inside)
      (Exchange.stage ⟨c, (Backend.call c S.storage).1⟩) left.1.cleanUp) :
    InPlace (S.afterAction a left rest)
      (Function.update stage none (Exchange.stage ⟨c, (Backend.call c S.storage).1⟩)) := by
  refine ⟨?_, fun i => ?_, ?_⟩
  · simp only [Scene.afterAction, hexchanges, hleft]
    exact h.owned.call horderly hstage
  · rw [Function.update_of_ne (Option.some_ne_none i)]
    exact h.admins i
  · rw [Function.update_self]
    exact hrest

/-- An action that does not touch the storage leaves all in place. -/
theorem afterAction_of_no_call (h : S.InPlace stage) {a : Action}
    (hexchanges : a.exchanges S.storage = []) {left : Controller × τ} (hleft : left.2 = S.storage)
    {rest : Procedure Exit}
    (hrest : rest.Proper (fun _ s _ => s ≠ .inside) (stage none) left.1.cleanUp) :
    InPlace (S.afterAction a left rest) stage := by
  refine ⟨?_, h.admins, hrest⟩
  simp only [Scene.afterAction, hexchanges, hleft, List.map_nil, List.append_nil]
  exact h.owned

/-- An action of the service leaves all in place. -/
theorem afterAction (horderly : Orderly τ) (h : S.InPlace stage) {a : Action}
    {next : a.Reply → Procedure Exit} (ha : S.service = .act a next) {r : a.Reply}
    {left : Controller × τ}
    (hreply : Replies Service.application a (S.controller, S.storage) r left) :
    ∃ stage', InPlace (S.afterAction a left (next r)) stage' := by
  obtain ⟨c, t⟩ := left
  have hproper := h.service
  rw [ha] at hproper
  cases a with
  | init =>
    obtain ⟨hstage, hok, herror⟩ := hproper
    obtain ⟨rfl, ⟨e, rfl, e', hopen⟩ | ⟨rfl, hopen⟩⟩ := hreply.init_cases horderly
    · refine ⟨_, h.afterAction_of_call (c := .openStore) horderly hstage (exchanges_init _)
        (by rw [hopen]) ?_⟩
      rw [hopen]
      exact herror e
    · refine ⟨_, h.afterAction_of_call (c := .openStore) horderly hstage (exchanges_init _)
        (by rw [hopen]) ?_⟩
      rw [hopen]
      exact hok
  | cleanUp =>
    obtain ⟨hstage, hnext⟩ := hproper
    obtain ⟨rfl, hclose⟩ := hreply.cleanUp_open horderly (h.owned.isOpen_iff.2 ⟨none, hstage⟩)
    exact ⟨_, h.afterAction_of_call (c := .closeStore) horderly hstage (exchanges_cleanUp _)
      (by rw [hclose]) (hnext r)⟩
  | claim =>
    cases hreply with
    | performed hperform =>
      -- Only the first claim leads to a cleanup.
      simp only [perform] at hperform
      split at hperform <;> cases hperform
      · next hpending => exact ⟨stage, h.afterAction_of_no_call rfl rfl (hproper.1 hpending)⟩
      · next b hfinished => exact ⟨stage, h.afterAction_of_no_call rfl rfl (hproper.2 b hfinished)⟩
  | settle | publish | trigger =>
    cases hreply with
    | performed hperform =>
      cases hperform
      exact ⟨stage, h.afterAction_of_no_call rfl rfl hproper⟩
  | await server =>
    obtain ⟨rfl, rfl⟩ := hreply.await_state
    exact ⟨stage, h.afterAction_of_no_call rfl rfl (hproper r)⟩

/-- Whatever happens next leaves all in place. -/
theorem step (horderly : Orderly τ) (h : S.InPlace stage) (hstep : Step S S') :
    ∃ stage', S'.InPlace stage' := by
  cases hstep with
  | admin hi => exact ⟨_, h.afterCall horderly hi⟩
  | service ha hreply => exact h.afterAction horderly ha hreply
  | trigger => exact ⟨stage, h.owned, h.admins, h.service⟩
  | elsewhere t hsame => exact ⟨stage, h.owned.elsewhere hsame, h.admins, h.service⟩

/-- Whatever happened, all are in place. -/
theorem of_reaches (horderly : Orderly τ) (h : S.InPlace stage)
    (hreaches : Relation.ReflTransGen Step S S') : ∃ stage', S'.InPlace stage' := by
  induction hreaches with
  | refl => exact ⟨stage, h⟩
  | tail _ hstep ih =>
    obtain ⟨stage', h'⟩ := ih
    exact h'.step horderly hstep

end InPlace

/-! ### Every scene -/

/-- What is seen of a scene in which the storage is shared as it ought to be. -/
structure WellShared (S : Scene ι τ ops) : Prop where
  open_iff : Backend.isOpen S.storage = true ↔ ∃! w, InSession (own w S.log)
  closed : Backend.isOpen S.storage = false → ∀ w, ¬InSession (own w S.log)
  /-- Whoever could not open the storage makes no other call. -/
  refused : ∀ w f, (w, ⟨.openStore, .error f⟩) ∈ S.log →
    own w S.log = [⟨.openStore, .error f⟩]
  /-- No call but the opening ever finds the storage closed. -/
  undisturbed : ∀ w c r, (w, ⟨c, r⟩) ∈ S.log → c ≠ .openStore → r ≠ fail .notOpen
  /-- The service does not give up. -/
  steadfast : ∀ a next, S.service = .act a next →
    (perform Service.application a (S.controller, S.storage)).1 ≠ .gaveUp
  ended : S.Ended → Backend.isOpen S.storage = false ∧
    S.log.countP (·.2.closes) = S.log.countP (·.2.opens)

/-- No step of the service gives up, whatever the operations have done in between. -/
theorem InPlace.steadfast {S : Scene ι τ ops} {stage : Option ι → Stage} (horderly : Orderly τ)
    (h : S.InPlace stage) {a : Action} {next : a.Reply → Procedure Exit}
    (ha : S.service = .act a next) :
    (perform Service.application a (S.controller, S.storage)).1 ≠ .gaveUp := by
  have hproper := h.service
  rw [ha] at hproper
  cases a with
  | init =>
    obtain ⟨e, t₁, hopen, -⟩ | ⟨t₁, -, -, hopen, -⟩ := horderly.open_cases S.storage
    · rw [perform, init_application_error hopen]
      rintro ⟨⟩
    · rw [perform, init_application_ok hopen]
      rintro ⟨⟩
  | cleanUp =>
    -- The cleanup comes within the session of the service, when the storage is open.
    obtain ⟨t₁, hclose, -⟩ :=
      horderly.close_isOpen S.storage (h.owned.isOpen_iff.2 ⟨none, hproper.1⟩)
    rw [perform, cleanUp_application_ok hclose]
    rintro ⟨⟩
  | claim =>
    rw [perform]
    split <;> rintro ⟨⟩
  | settle | publish | trigger => rintro ⟨⟩
  | await server =>
    rw [perform]
    split
    · rintro ⟨⟩
    · split <;> rintro ⟨⟩

/-- Where everybody is in place the storage is well shared. -/
theorem InPlace.wellShared {S : Scene ι τ ops} {stage : Option ι → Stage} (horderly : Orderly τ)
    (h : S.InPlace stage) : S.WellShared where
  open_iff := by
    simp only [h.owned.isOpen_iff, h.owned.inSession_iff]
    exact ⟨fun ⟨w, hw⟩ => ⟨w, hw, fun w' hw' => h.owned.unique w' w hw' hw⟩, fun hw => hw.exists⟩
  closed hclosed w hw := by
    rw [h.owned.isOpen_iff.2 ⟨w, (h.owned.inSession_iff w).1 hw⟩] at hclosed
    cases hclosed
  refused w f hmem := ((h.owned.course w).refused (Storage.mem_own.2 hmem)).1
  undisturbed := h.owned.undisturbed
  steadfast _ _ ha := h.steadfast horderly ha
  ended := by
    rintro ⟨⟨exit, hservice⟩, hadmins⟩
    -- Neither the service nor an operation is inside once it has ended.
    have hnone : ∀ w, stage w ≠ .inside := by
      rintro (- | i)
      · have hproper := h.service
        rw [hservice] at hproper
        exact hproper
      · exact (h.admins i).of_ended (hadmins i)
    have hclosed : Backend.isOpen S.storage = false := by
      rw [← Bool.not_eq_true, h.owned.isOpen_iff]
      rintro ⟨w, hw⟩
      exact hnone w hw
    have hbalanced := h.owned.balanced
    rw [hclosed] at hbalanced
    exact ⟨hclosed, hbalanced⟩

end Scene

/-- Whoever shares a storage with a service, and however what they do is mixed: the storage is open
    if and only if one of them is in session, and it is exactly one; nobody closes it who has not
    opened it, and nobody is disturbed in a session. In the end it is closed, as often as it was
    opened. Storages in memory and in a document do what this asks of a storage, on any disk. -/
theorem storage_is_owned :
    (∀ {ι τ : Type} [DecidableEq ι] [Backend τ], Orderly τ →
      ∀ (ops : ι → Operation) (port : Nat) (bound : Except SystemError Unit) (server : Server)
        (t : τ), Backend.isOpen t = false →
        ∀ S : Scene ι τ ops,
          Relation.ReflTransGen Scene.Step (Scene.start ops port bound server t) S →
            S.WellShared) ∧
    Orderly Memory ∧ ∀ (δ : Type) [Disk δ], Orderly (Persistent δ) := by
  refine ⟨?_, Storage.orderly_memory, fun δ => Storage.orderly_persistent δ⟩
  intro ι τ _ _ horderly ops port bound server t hclosed S hreaches
  obtain ⟨stage, hplace⟩ := (Scene.InPlace.start hclosed).of_reaches horderly hreaches
  exact hplace.wellShared horderly

/-- A service that finds an operation in session is refused, and does not close what it has not
    opened. -/
theorem storage_is_owned_refused :
    let ops : Unit → Operation := fun _ => .list
    let start : Scene Unit Memory ops := .start ops 8080 (.ok ()) .endless {}
    ∃ S S' : Scene Unit Memory ops,
      Relation.ReflTransGen Scene.Step start S ∧ Relation.ReflTransGen Scene.Step start S' ∧
      S.log = [(some (), ⟨.openStore, .ok ()⟩), (none, ⟨.openStore, fail .alreadyOpen⟩)] ∧
      S.WellShared ∧ S'.Ended ∧ S'.WellShared ∧ S'.log.countP (·.2.opens) = 1 := by
  intro ops start
  have hrefused : Relation.ReflTransGen Scene.Step start _ :=
    .head (.admin (i := ()) rfl) <| .head (.service rfl (.performed rfl)) <| .refl
  have hended := hrefused.trans <| .head (.service rfl (.performed rfl)) <|
    .head (.admin (i := ()) rfl) <| .head (.service rfl (.performed rfl)) <|
    .head (.admin (i := ()) rfl) <| .refl
  refine ⟨_, _, hrefused, hended, rfl,
    storage_is_owned.1 storage_is_owned.2.1 ops _ _ _ _ rfl _ hrefused, ⟨⟨_, rfl⟩, ?_⟩,
    storage_is_owned.1 storage_is_owned.2.1 ops _ _ _ _ rfl _ hended, rfl⟩
  rintro ⟨⟩
  exact trivial

end Lifecycle

end Gatehouse
