import Gatehouse.Lifecycle.Controller

/-!
# The ways a procedure can go

While a procedure is under way the shutdown may be triggered from outside, before any of its
actions and any number of times, and where both the shutdown and the end of a server have come,
either may be noticed. `Reaches` has all the ways that this leaves open. `Ensures` says of a
procedure that it comes to its end in each of them, with what is wanted: it is checked action by
action, and no trigger can undo it.

## Key results

- `Reaches.ensures`: what is ensured is ensured of the rest, however far the procedure got
- `Ensures.exists_finished`: a procedure that ensures something comes to its end
- `Does.bind` / `Does.ensures_bind`: procedures one after the other
- `Reaches.of_run`: running a procedure is one of the ways it can go
- `Reaches.triggered`: who triggers the shutdown leaves it triggered
-/

namespace Gatehouse.Lifecycle

variable {α β σ : Type}

/-- An action together with its reply. -/
structure Deed where
  action : Action
  reply : action.Reply

/-- The state with the shutdown triggered. -/
def afterTrigger (S : Controller × σ) : Controller × σ := ({ S.1 with triggered := true }, S.2)

/-- Triggering again changes nothing. -/
theorem afterTrigger_of_triggered {S : Controller × σ} (h : S.1.triggered = true) :
    afterTrigger S = S := by
  obtain ⟨⟨published, cleanUp, triggered⟩, s⟩ := S
  cases h
  rfl

/-! ### Replies -/

/-- The reply that an action can get, and the state that it leaves. A shutdown that was triggered
    may be noticed although the server has ended too, and a server that serves until the shutdown
    may be seen to have ended with it. -/
inductive Replies (app : Application σ) :
    (a : Action) → Controller × σ → a.Reply → Controller × σ → Prop
  | performed {a : Action} {S : Controller × σ} {r : a.Reply} {S' : Controller × σ}
    (h : perform app a S = (.reply r, S')) : Replies app a S r S'
  | shutDown {server : Server} {S : Controller × σ} (h : S.1.triggered = true) :
    Replies app (.await server) S none S
  | stopped {server : Server} {S : Controller × σ} (h : S.1.triggered = true)
    (hend : server.end? = none) : Replies app (.await server) S (some (.ok ())) S

variable {app : Application σ} {a : Action} {S S' : Controller × σ}

/-- An action that gets a reply gets the same one after the trigger. -/
theorem perform_afterTrigger {r : a.Reply} (h : perform app a S = (.reply r, S')) :
    perform app a (afterTrigger S) = (.reply r, afterTrigger S') := by
  obtain ⟨c, s⟩ := S
  -- No action but the waiting looks at the trigger, and none undoes it.
  cases a with
  | init =>
    simp only [perform, afterTrigger] at h ⊢
    split at h <;> cases h
    rfl
  | claim =>
    simp only [perform, afterTrigger] at h ⊢
    split at h <;> cases h <;> rfl
  | cleanUp =>
    simp only [perform, afterTrigger] at h ⊢
    split at h <;> cases h
    rfl
  | settle succeeded =>
    cases h
    rfl
  | publish p =>
    cases h
    rfl
  | await server =>
    simp only [perform, afterTrigger] at h ⊢
    -- The end of the server is preferred, so the trigger counts only without one.
    cases hend : server.end? with
    | some ended =>
      rw [hend] at h
      cases h
      rfl
    | none =>
      rw [hend] at h
      dsimp only at h
      split at h <;> cases h
      rfl
  | trigger =>
    cases h
    rfl

/-- Who has to wait changes nothing. -/
theorem perform_wait (h : perform app a S = (.wait, S')) : S' = S := by
  obtain ⟨c, s⟩ := S
  cases a with
  | init | cleanUp =>
    simp only [perform] at h
    split at h <;> cases h
  | claim =>
    simp only [perform] at h
    split at h <;> cases h
    rfl
  | settle | publish | trigger => cases h
  | await server =>
    simp only [perform] at h
    split at h
    · cases h
    · split at h <;> cases h
      rfl

/-- A reply that an action can get is one that it can get after the trigger. -/
theorem Replies.afterTrigger {r : a.Reply} (h : Replies app a S r S') :
    Replies app a (afterTrigger S) r (afterTrigger S') := by
  cases h with
  | performed h => exact .performed (perform_afterTrigger h)
  | shutDown h => exact .shutDown rfl
  | stopped h hend => exact .stopped rfl hend

/-- An action that can get a reply gets one when it is performed. -/
theorem Replies.exists_perform {r : a.Reply} (h : Replies app a S r S') :
    ∃ r' S'', perform app a S = (.reply r', S'') := by
  -- What may be noticed is one thing; something is noticed in any case.
  have hawait : ∀ (server : Server) {S : Controller × σ}, S.1.triggered = true →
      ∃ r' S'', perform app (.await server) S = (.reply r', S'') := by
    intro server S h
    simp only [perform]
    split
    · exact ⟨_, _, rfl⟩
    · rw [if_pos h]
      exact ⟨_, _, rfl⟩
  cases h with
  | performed h => exact ⟨r, S', h⟩
  | shutDown h => exact hawait _ h
  | stopped h hend => exact hawait _ h

/-- A triggered shutdown stays triggered. -/
theorem Replies.triggered {r : a.Reply} (h : Replies app a S r S')
    (htriggered : S.1.triggered = true) : S'.1.triggered = true := by
  cases h with
  | shutDown h => exact h
  | stopped h hend => exact h
  | performed h =>
    -- To trigger what is triggered already makes no difference, before the action and after it.
    have hagain := perform_afterTrigger h
    rw [afterTrigger_of_triggered htriggered, h] at hagain
    rw [(Prod.mk.inj hagain).2]
    rfl

/-! ### Ways -/

/-- A way from one procedure and state to another, with what was done on it. The shutdown may be
    triggered from outside at every point. -/
inductive Reaches (app : Application σ) :
    Procedure α → Controller × σ → List Deed → Procedure α → Controller × σ → Prop
  | nil (p : Procedure α) (S : Controller × σ) : Reaches app p S [] p S
  | act {a : Action} {next : a.Reply → Procedure α} {S S' S'' : Controller × σ} {r : a.Reply}
    {ds : List Deed} {p : Procedure α} (first : Replies app a S r S')
    (rest : Reaches app (next r) S' ds p S'') : Reaches app (.act a next) S (⟨a, r⟩ :: ds) p S''
  | trigger {p p' : Procedure α} {S S' : Controller × σ} {ds : List Deed}
    (rest : Reaches app p (afterTrigger S) ds p' S') : Reaches app p S ds p' S'

variable {p p' : Procedure α} {ds : List Deed}

/-- A procedure that is run goes one of its ways, to its end or to where it has to wait. -/
theorem Reaches.of_run
    (h : p.run app S = (.waiting p', S') ∨
      ∃ x, p' = .done x ∧ p.run app S = (.finished x, S')) :
    ∃ ds, Reaches app p S ds p' S' := by
  -- Induction on the procedure: what is performed first is a reply that is possible.
  induction p generalizing S with
  | done x =>
    obtain h | ⟨y, rfl, h⟩ := h
    · cases h
    · cases h
      exact ⟨[], .nil _ _⟩
  | act a next ih =>
    rw [Procedure.run] at h
    match hperform : perform app a S with
    | (.reply r, S₁) =>
      rw [hperform] at h
      obtain ⟨ds, hrest⟩ := ih r h
      exact ⟨⟨a, r⟩ :: ds, .act (.performed hperform) hrest⟩
    | (.wait, S₁) =>
      rw [hperform] at h
      obtain h | ⟨y, rfl, h⟩ := h
      · cases h
        rw [perform_wait hperform]
        exact ⟨[], .nil _ _⟩
      · cases h
    | (.gaveUp, S₁) =>
      rw [hperform] at h
      obtain h | ⟨y, rfl, h⟩ := h <;> cases h

/-- What can be done at all can be done with the shutdown triggered from the beginning. -/
theorem Reaches.of_trigger (h : Reaches app p S ds p' S') :
    Reaches app p (afterTrigger S) ds p' (afterTrigger S') := by
  -- Induction on the way: triggers on it become superfluous, and actions reply as before.
  induction h with
  | nil => exact .nil _ _
  | act first _ ih => exact .act first.afterTrigger ih
  | trigger _ ih => exact ih

/-- What was triggered once stays so. -/
theorem Reaches.of_triggered (h : Reaches app p S ds p' S') (htriggered : S.1.triggered = true) :
    S'.1.triggered = true := by
  induction h with
  | nil => exact htriggered
  | act first _ ih => exact ih (first.triggered htriggered)
  | trigger _ ih => exact ih rfl

/-- Who triggers the shutdown on the way leaves it triggered. -/
theorem Reaches.triggered (h : Reaches app p S ds p' S') (hmem : ⟨.trigger, ()⟩ ∈ ds) :
    S'.1.triggered = true := by
  induction h with
  | nil => cases hmem
  | trigger _ ih => exact ih hmem
  | act first rest ih =>
    rcases List.mem_cons.1 hmem with heq | hmem
    · cases heq
      refine rest.of_triggered ?_
      cases first with
      | performed h =>
        cases h
        rfl
    · exact ih hmem

/-! ### What a procedure ensures -/

namespace Procedure

/-- Whether a procedure comes to its end in every way it can go, and what was done, the value and
    the state are then as wanted. -/
def Ensures (app : Application σ) :
    Procedure α → (List Deed → α → Controller × σ → Prop) → Controller × σ → Prop
  | done x, Q, S => Q [] x S ∧ Q [] x (afterTrigger S)
  | act a next, Q, S =>
    -- The trigger may come before the action, in which case the rest is entered triggered.
    (∃ r S', Replies app a S r S') ∧
      ∀ r S', Replies app a S r S' ∨ Replies app a (afterTrigger S) r S' →
        Ensures app (next r) (fun ds => Q (⟨a, r⟩ :: ds)) S'

variable {Q Q' : List Deed → α → Controller × σ → Prop}

/-- A trigger undoes nothing. -/
theorem Ensures.trigger (h : Ensures app p Q S) : Ensures app p Q (afterTrigger S) := by
  cases p with
  | done x => exact ⟨h.2, h.2⟩
  | act a next =>
    obtain ⟨⟨r, S', hr⟩, hnext⟩ := h
    exact ⟨⟨r, _, hr.afterTrigger⟩, fun r S' h' => hnext r S' (.inr (h'.elim id id))⟩

/-- Whatever is wanted less is ensured, too. -/
theorem Ensures.mono (h : Ensures app p Q S) (hQ : ∀ ds x S, Q ds x S → Q' ds x S) :
    Ensures app p Q' S := by
  induction p generalizing Q Q' S with
  | done x => exact h.imp (hQ _ _ _) (hQ _ _ _)
  | act a next ih =>
    exact ⟨h.1, fun r S' h' => ih r (h.2 r S' h') fun ds => hQ (⟨a, r⟩ :: ds)⟩

/-- Two procedures in a row ensure what the second one does wherever the first one ends. -/
theorem Ensures.bind {t : Procedure β} {f : β → Procedure α}
    (h : Ensures app t (fun ds b => Ensures app (f b) fun ds' => Q (ds ++ ds')) S) :
    Ensures app (t.bind f) Q S := by
  induction t generalizing Q S with
  | done b => exact h.1
  | act a next ih => exact ⟨h.1, fun r S' h' => ih r (h.2 r S' h')⟩

/-- A procedure that ensures something comes to its end when it is run. -/
theorem Ensures.exists_finished (h : Ensures app p Q S) :
    ∃ x, (p.run app S).1 = .finished x := by
  induction p generalizing Q S with
  | done x => exact ⟨x, rfl⟩
  | act a next ih =>
    obtain ⟨⟨r, S', hr⟩, hnext⟩ := h
    obtain ⟨r', S'', hperform⟩ := hr.exists_perform
    rw [run, hperform]
    exact ih r' (hnext r' S'' (.inl (.performed hperform)))

/-! ### Procedures that go one way -/

/-- Whether a procedure comes to its end in one way only, but for triggers from outside. -/
def Does (app : Application σ) (p : Procedure α) (S : Controller × σ) (ds : List Deed) (x : α)
    (S' : Controller × σ) : Prop :=
  Ensures app p (fun ds₁ x₁ S₁ => ds₁ = ds ∧ x₁ = x ∧ (S₁ = S' ∨ S₁ = afterTrigger S')) S

/-- A procedure that is done does nothing. -/
theorem does_done (x : α) (S : Controller × σ) : Does app (done x) S [] x S :=
  ⟨⟨rfl, rfl, .inl rfl⟩, ⟨rfl, rfl, .inr rfl⟩⟩

/-- After a procedure that goes one way it is enough to look at the state that it leaves. -/
theorem Does.ensures_bind {t : Procedure β} {f : β → Procedure α} {b : β}
    (ht : Does app t S ds b S') (hf : Ensures app (f b) (fun ds' => Q (ds ++ ds')) S') :
    Ensures app (t.bind f) Q S := by
  refine Ensures.bind (Ensures.mono ht ?_)
  rintro _ _ _ ⟨rfl, rfl, rfl | rfl⟩
  · exact hf
  · exact hf.trigger

/-- Two procedures in a row do what the first one does and then what the second one does. -/
theorem Does.bind {t : Procedure β} {f : β → Procedure α} {b : β} {ds' : List Deed} {x : α}
    {S'' : Controller × σ} (ht : Does app t S ds b S') (hf : Does app (f b) S' ds' x S'') :
    Does app (t.bind f) S (ds ++ ds') x S'' := by
  refine ht.ensures_bind (Ensures.mono hf ?_)
  rintro _ _ _ ⟨rfl, hx, hS⟩
  exact ⟨rfl, hx, hS⟩

/-- An action that waits for nothing goes one way. -/
theorem does_one {r : a.Reply} (ha : ∀ server, a ≠ .await server)
    (h : perform app a S = (.reply r, S')) : Does app (one a) S [⟨a, r⟩] r S' := by
  refine ⟨⟨r, S', .performed h⟩, ?_⟩
  have huniform : ∀ {S r' S₁}, Replies app a S r' S₁ → perform app a S = (.reply r', S₁) := by
    intro S r' S₁ h'
    cases h' with
    | performed h' => exact h'
    | shutDown h' => exact absurd rfl (ha _)
    | stopped h' hend => exact absurd rfl (ha _)
  -- The trigger may come before the action; then it is found triggered afterwards.
  rintro r' S₁ (h' | h')
  · have heq := (huniform h').symm.trans h
    simp only [Prod.mk.injEq, Outcome.reply.injEq] at heq
    obtain ⟨rfl, rfl⟩ := heq
    exact ⟨⟨rfl, rfl, .inl rfl⟩, ⟨rfl, rfl, .inr rfl⟩⟩
  · have heq := (huniform h').symm.trans (perform_afterTrigger h)
    simp only [Prod.mk.injEq, Outcome.reply.injEq] at heq
    obtain ⟨rfl, rfl⟩ := heq
    exact ⟨⟨rfl, rfl, .inr rfl⟩, ⟨rfl, rfl, .inr rfl⟩⟩

/-- Waiting for a server ends if it ends or with the shutdown, and with an error only if the server
    fails with it. -/
theorem ensures_await {server : Server} {f : Option (Except ServerError Unit) → Procedure α}
    (hends : S.1.triggered = true ∨ server.end? ≠ none)
    (h : ∀ ended, (∀ e, ended = some (.error e) → server = .failed e) →
      Ensures app (f ended) (fun ds => Q (⟨.await server, ended⟩ :: ds)) S) :
    Ensures app (act (.await server) f) Q S := by
  -- Waiting changes nothing, and an error comes only of a server that fails with it.
  have hreplies : ∀ {S : Controller × σ} {ended S₁}, Replies app (.await server) S ended S₁ →
      (∀ e, ended = some (.error e) → server = .failed e) ∧ S₁ = S := by
    intro S ended S₁ h'
    cases h' with
    | shutDown h' => exact ⟨nofun, rfl⟩
    | stopped h' hend => exact ⟨nofun, rfl⟩
    | performed h' =>
      cases server with
      | endless =>
        simp only [perform, Server.end?] at h'
        split at h' <;> cases h'
        exact ⟨nofun, rfl⟩
      | ended =>
        cases h'
        exact ⟨nofun, rfl⟩
      | failed e =>
        cases h'
        exact ⟨fun _ h => by cases h; rfl, rfl⟩
  constructor
  · -- Whichever of the two is known to come can be what is noticed.
    rcases hends with htriggered | hend
    · exact ⟨none, S, .shutDown htriggered⟩
    · obtain ⟨r, hr⟩ := Option.ne_none_iff_exists'.1 hend
      refine ⟨some r, S, .performed ?_⟩
      simp only [perform, hr]
  · rintro ended S₁ (h' | h')
    · obtain ⟨hended, rfl⟩ := hreplies h'
      exact h ended hended
    · obtain ⟨hended, rfl⟩ := hreplies h'
      exact (h ended hended).trigger

end Procedure

/-- However far a procedure got, the rest ensures what the whole does. -/
theorem Reaches.ensures {Q : List Deed → α → Controller × σ → Prop}
    (hway : Reaches app p S ds p' S') (h : p.Ensures app Q S) :
    p'.Ensures app (fun ds' => Q (ds ++ ds')) S' := by
  -- Induction on the way, with what is wanted kept general: each deed becomes part of it.
  induction hway generalizing Q with
  | nil => exact h
  | act first _ ih => exact ih (h.2 _ _ (.inl first))
  | trigger _ ih => exact ih h.trigger

end Gatehouse.Lifecycle
