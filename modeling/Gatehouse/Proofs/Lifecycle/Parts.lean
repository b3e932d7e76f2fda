import Gatehouse.Lifecycle.Procedures

/-!
# What a party has to do with the cleanup

Those who use a controller get hold of what the service needs, listen, serve, ask for the cleanup,
or live a whole life. At any point of this a party has a `Part` in the cleanup: it has not asked for
it, has it in hand, or knows its outcome. That a procedure keeps to its part is checked action by
action, for each procedure alone (`Procedure.Minds`).

## Key results

- `Minds.bind`: procedures one after the other
- `Minds.executor` / `Minds.reporter`: who has the cleanup in hand does nothing else
- `minds_use`: every use of a controller keeps to its part
- `Use.Ends.informed`: who asks for the cleanup in any case knows its outcome in the end
-/

namespace Gatehouse.Lifecycle

/-! ## Uses of a controller -/

/-- What can be asked of a controller. -/
inductive Use
  | acquire
  | cleanUp
  | listen (port : Nat) (bound : Except SystemError Unit)
  | serve (server : Server)
  | live (port : Nat) (bound : Except SystemError Unit) (server : Server)

namespace Use

/-- What a use of a controller comes to. -/
abbrev Value : Use → Type
  | acquire => Except Error Unit
  | cleanUp => Bool
  | listen _ _ => Except Error Unit
  | serve _ => Except Error Exit
  | live _ _ _ => Exit

/-- What is done in a use of a controller. -/
def procedure : (u : Use) → Procedure u.Value
  | acquire => Lifecycle.acquire
  | cleanUp => Lifecycle.cleanUp
  | listen port bound => Lifecycle.listen port bound
  | serve server => Lifecycle.serve server
  | live port bound server => wholeLife port bound server

/-- Whether the application is asked to acquire what it needs. -/
def acquires : Use → Bool
  | acquire => true
  | live _ _ _ => true
  | _ => false

/-- Whether the cleanup is asked for in any case. -/
def asks : Use → Bool
  | cleanUp => true
  | listen _ (.error _) => true
  | serve _ => true
  | _ => false

/-- What a use that came to a value says about the cleanup: its outcome, or an exit that is clean if
    and only if it succeeded. Other values say nothing. -/
def Tells : (u : Use) → u.Value → Bool → Prop
  | acquire, _, _ => True
  | cleanUp, told, succeeded => told = succeeded
  | listen _ _, _, _ => True
  | serve _, ended, succeeded => ∀ exit, ended = .ok exit → (exit = .clean ↔ succeeded = true)
  | live _ _ _, exit, succeeded => exit = .clean → succeeded = true

end Use

/-! ## Parts -/

/-- What a party has to do with the cleanup. -/
inductive Part
  /-- It has not asked for it. -/
  | bystander
  /-- It could not acquire what the service needs, so there is nothing to clean up. -/
  | refused
  /-- It was told to execute it. -/
  | executor
  /-- It has executed it, and has to note the outcome. -/
  | reporter (r : Except AppError Unit)
  /-- It knows the outcome. -/
  | informed (succeeded : Bool)

namespace Part

/-- Whether the party does not have the cleanup in hand. -/
def Free : Part → Prop
  | executor => False
  | reporter _ => False
  | _ => True

/-- Whether the party has learnt nothing of the cleanup and does not have it in hand. -/
def Outside : Part → Prop
  | bystander => True
  | refused => True
  | _ => False

/-- What the party was told. -/
def knowledge : Part → List Bool
  | reporter r => [r.isOk]
  | informed succeeded => [succeeded]
  | _ => []

/-- A party that has learnt nothing of the cleanup does not have it in hand. -/
theorem Outside.free {m : Part} (h : m.Outside) : m.Free := by
  cases m with
  | bystander | refused => trivial
  | executor | reporter | informed => exact h.elim

/-- A party that has learnt nothing of the cleanup knows nothing about it. -/
theorem Outside.knowledge_eq {m : Part} (h : m.Outside) : m.knowledge = [] := by
  cases m with
  | bystander | refused => rfl
  | executor | reporter | informed => exact h.elim

end Part

/-! ### Keeping to a part -/

namespace Procedure

variable {α β : Type} {acquires : Bool}

/-- Whether a procedure keeps to its part, from the one that it has now on, and ends as wanted. Who
    has the cleanup in hand does nothing else; termination is published by parties for which the
    cleanup is over, and by those that have nothing to clean up. -/
def Minds (acquires : Bool) (Q : α → Part → Prop) : Procedure α → Part → Prop
  | done x, m => Q x m
  | act .init next, m =>
    acquires = true ∧ m = .bystander ∧ Minds acquires Q (next (.ok ())) .bystander ∧
      ∀ e, Minds acquires Q (next (.error e)) .refused
  | act .claim next, m =>
    m = .bystander ∧ Minds acquires Q (next none) .executor ∧
      ∀ b, Minds acquires Q (next (some b)) (.informed b)
  | act .cleanUp next, m => m = .executor ∧ ∀ r, Minds acquires Q (next r) (.reporter r)
  | act (.settle b) next, m =>
    (∃ r, m = .reporter r ∧ r.isOk = b) ∧ Minds acquires Q (next ()) (.informed b)
  | act (.publish p) next, m =>
    m.Free ∧ (p = .terminated → m ≠ .bystander) ∧ Minds acquires Q (next ()) m
  | act (.await _) next, m => m.Free ∧ ∀ r, Minds acquires Q (next r) m
  | act .trigger next, m => m.Free ∧ Minds acquires Q (next ()) m

/-- Two procedures in a row keep to their part if the second one does with the part in which the
    first one ends. -/
theorem Minds.bind {Q : α → Part → Prop} {t : Procedure β} {f : β → Procedure α} {m : Part}
    (h : Minds acquires (fun b => Minds acquires Q (f b)) t m) :
    Minds acquires Q (t.bind f) m := by
  -- By induction on the first procedure, one case for each action it may begin with.
  induction t generalizing m with
  | done b => exact h
  | act a next ih =>
    cases a with
    | init => exact ⟨h.1, h.2.1, ih _ h.2.2.1, fun e => ih _ (h.2.2.2 e)⟩
    | claim => exact ⟨h.1, ih _ h.2.1, fun b => ih _ (h.2.2 b)⟩
    | cleanUp => exact ⟨h.1, fun r => ih r (h.2 r)⟩
    | settle => exact ⟨h.1, ih _ h.2⟩
    | publish => exact ⟨h.1, h.2.1, ih _ h.2.2⟩
    | await => exact ⟨h.1, fun r => ih r (h.2 r)⟩
    | trigger => exact ⟨h.1, ih _ h.2⟩

/-- Who was told to execute the cleanup does so next. -/
theorem Minds.executor {Q : α → Part → Prop} {p : Procedure α}
    (hQ : ∀ x, ¬Q x .executor) (h : p.Minds acquires Q .executor) :
    ∃ next, p = .act .cleanUp next := by
  cases p with
  | done x => exact absurd h (hQ x)
  | act a next =>
    cases a with
    | init => exact nomatch h.2.1
    | claim => exact nomatch h.1
    | cleanUp => exact ⟨next, rfl⟩
    | settle =>
      obtain ⟨⟨r, hr, -⟩, -⟩ := h
      cases hr
    | publish | await | trigger => exact h.1.elim

/-- Who has executed the cleanup notes its outcome next. -/
theorem Minds.reporter {Q : α → Part → Prop} {p : Procedure α} {r : Except AppError Unit}
    (hQ : ∀ x r, ¬Q x (.reporter r)) (h : p.Minds acquires Q (.reporter r)) :
    ∃ b next, p = .act (.settle b) next := by
  cases p with
  | done x => exact absurd h (hQ x r)
  | act a next =>
    cases a with
    | init => exact nomatch h.2.1
    | claim => exact nomatch h.1
    | cleanUp => exact nomatch h.1
    | settle b => exact ⟨b, next, rfl⟩
    | publish | await | trigger => exact h.1.elim

end Procedure

open Procedure (Minds)

section Uses

variable {acquires : Bool}

/-- Whoever asks for the cleanup does it or waits for it, and learns its outcome. -/
theorem minds_cleanUp {Q : Bool → Part → Prop} (hQ : ∀ b, Q b (.informed b)) :
    Minds acquires Q cleanUp .bystander := by
  refine ⟨rfl, ⟨rfl, fun r => ?_⟩, hQ⟩
  cases r with
  | ok _ => exact ⟨⟨_, rfl, rfl⟩, hQ true⟩
  | error e => exact ⟨⟨_, rfl, rfl⟩, hQ false⟩

/-- Whoever terminates learns the outcome of the cleanup, and exits by it. -/
theorem minds_terminate {Q : Exit → Part → Prop} (hQ : ∀ b, Q (.ofCleanUp b) (.informed b)) :
    Minds acquires Q terminate .bystander := by
  refine ⟨trivial, nofun, Minds.bind (t := cleanUp) (minds_cleanUp fun b => ?_)⟩
  exact ⟨trivial, nofun, hQ b⟩

/-- Whoever cannot get hold of what is needed has nothing to clean up. -/
theorem minds_acquire {Q : Except Error Unit → Part → Prop} (hok : Q (.ok ()) .bystander)
    (herror : ∀ e, Q (.error (.init e)) .refused) : Minds true Q acquire .bystander :=
  ⟨rfl, rfl, ⟨trivial, nofun, hok⟩, fun e => ⟨trivial, nofun, herror e⟩⟩

/-- Whoever cannot bind the port learns the outcome of the cleanup before it ends. -/
theorem minds_listen_error {port : Nat} {e : SystemError} {Q : Except Error Unit → Part → Prop}
    (hQ : ∀ b, Q (.error (.listen ⟨listenAddress port, e⟩)) (.informed b)) :
    Minds acquires Q (listen port (.error e)) .bystander :=
  Minds.bind (minds_terminate hQ)

/-- However serving ends, the service is terminated, and an exit is that of the cleanup. -/
theorem minds_serve {server : Server} {Q : Except Error Exit → Part → Prop}
    (hok : ∀ b, Q (.ok (.ofCleanUp b)) (.informed b))
    (herror : ∀ e b, Q (.error (.serve e)) (.informed b)) :
    Minds acquires Q (serve server) .bystander := by
  refine ⟨trivial, nofun, trivial, fun ended => ?_⟩
  match ended with
  | none | some (.ok ()) => exact Minds.bind (t := terminate) (minds_terminate hok)
  | some (.error e) => exact Minds.bind (t := terminate) (minds_terminate fun b => herror e b)

/-- What a whole life comes to, with the part that is played in the end. -/
def ofLife (exit : Exit) (m : Part) : Prop :=
  (m = .refused ∧ exit = .failed) ∨ ∃ b, m = .informed b ∧ (exit = .clean → b = true)

/-- An exit is clean if and only if the cleanup succeeded. -/
theorem clean_ofCleanUp_iff (b : Bool) : Exit.ofCleanUp b = .clean ↔ b = true := by
  cases b <;> simp [Exit.ofCleanUp]

/-- A whole life keeps to its part, and ends as one. -/
theorem minds_wholeLife (port : Nat) (bound : Except SystemError Unit) (server : Server) :
    Minds true ofLife (wholeLife port bound server) .bystander := by
  refine Minds.bind (Minds.bind (minds_acquire ?_ fun e => ⟨trivial, .inl ⟨rfl, rfl⟩⟩))
  -- What was acquired is released, whether the service can listen or not.
  cases bound with
  | error e => exact Minds.bind (minds_listen_error fun b => ⟨trivial, .inr ⟨b, rfl, nofun⟩⟩)
  | ok _ =>
    refine minds_serve (fun b => ⟨trivial, .inr ⟨b, rfl, ?_⟩⟩) fun e b =>
      ⟨trivial, .inr ⟨b, rfl, nofun⟩⟩
    exact (clean_ofCleanUp_iff b).1

/-- What a use of a controller comes to, with the part that is played in the end. -/
def Use.Ends : (u : Use) → u.Value → Part → Prop
  | acquire, _, m => m.Outside
  | cleanUp, succeeded, m => m = .informed succeeded
  | listen _ (.ok _), _, m => m.Outside
  | listen _ (.error _), _, m => ∃ b, m = .informed b
  | serve server, ended, m => ∃ b, m = .informed b ∧ (serve server).Tells ended b
  | live _ _ _, exit, m => ofLife exit m

/-- Every use of a controller keeps to its part. -/
theorem minds_use (u : Use) : Minds u.acquires u.Ends u.procedure .bystander := by
  cases u with
  | acquire => exact minds_acquire trivial fun _ => trivial
  | cleanUp => exact minds_cleanUp fun _ => rfl
  | listen port bound =>
    cases bound with
    | ok _ => exact trivial
    | error e => exact minds_listen_error fun b => ⟨b, rfl⟩
  | serve server =>
    have hok : ∀ b, (Use.serve server).Ends (.ok (.ofCleanUp b)) (.informed b) := by
      intro b
      refine ⟨b, rfl, fun exit hexit => ?_⟩
      cases hexit
      exact clean_ofCleanUp_iff b
    have herror : ∀ e b, (Use.serve server).Ends (.error (.serve e)) (.informed b) :=
      fun e b => ⟨b, rfl, nofun⟩
    exact minds_serve hok herror
  | live port bound server => exact minds_wholeLife port bound server

/-- A use that has ended does not have the cleanup in hand. -/
theorem Use.Ends.free {u : Use} {x : u.Value} {m : Part} (h : u.Ends x m) : m.Free := by
  cases u with
  | acquire => exact Part.Outside.free h
  | cleanUp =>
    obtain rfl : m = .informed x := h
    trivial
  | listen port bound =>
    cases bound with
    | ok _ => exact Part.Outside.free h
    | error e =>
      obtain ⟨b, rfl⟩ := h
      trivial
  | serve server =>
    obtain ⟨b, rfl, -⟩ := h
    trivial
  | live port bound server =>
    obtain ⟨rfl, -⟩ | ⟨b, rfl, -⟩ := h
    · trivial
    · trivial

/-- A use that asks for the cleanup in any case is informed in the end. -/
theorem Use.Ends.informed {u : Use} {x : u.Value} {m : Part} (h : u.Ends x m)
    (hasks : u.asks = true) : ∃ b, m = .informed b ∧ u.Tells x b := by
  cases u with
  | acquire | live => cases hasks
  | cleanUp => exact ⟨x, h, rfl⟩
  | listen port bound =>
    cases bound with
    | ok _ => cases hasks
    | error e =>
      obtain ⟨b, hm⟩ := h
      exact ⟨b, hm, trivial⟩
  | serve server => exact h

end Uses

end Gatehouse.Lifecycle
