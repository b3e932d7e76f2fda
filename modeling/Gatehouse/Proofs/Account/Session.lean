import Gatehouse.Account.Admin
import Gatehouse.Proofs.Storage.Exchange
import Gatehouse.Storage.Memory
import Gatehouse.Storage.Watched
import Mathlib.Data.List.DropRight

/-!
# Sessions of administration

Every administrative operation is a session of its own, unless it takes an email address and gets a
blank one. Whatever the calls of a session result in, it opens the backend once, and if it was
opened it makes the one call for data and closes the backend once. What comes of the session is
decided by these results in an order of precedence, which `Verdict` lists.

## Key results

- `isBlank_iff_trimmed`: a text is blank if nothing is left of it between white space
- `held_of_ends`: a session, from what passes between it and the backend to what comes of it
- `sessions_in_order`: every operation, on every backend
-/

namespace Gatehouse

namespace Text

/-- A text without the white space at its ends. -/
def trimmed (s : String) : List Char := (s.toList.dropWhile isSpace).rdropWhile isSpace

/-- A text is blank if nothing is left of it between white space. -/
theorem isBlank_iff_trimmed (s : String) : isBlank s = true ↔ trimmed s = [] := by
  rw [isBlank, trimmed, List.rdropWhile_eq_nil_iff, List.all_eq_true]
  constructor
  · intro h c hc
    exact h c ((List.dropWhile_sublist _).subset hc)
  · intro h c hc
    -- A character was either dropped as white space or is left in front of the end.
    rw [← List.takeWhile_append_dropWhile (p := isSpace) (l := s.toList), List.mem_append] at hc
    rcases hc with hc | hc
    · exact List.mem_takeWhile_imp hc
    · exact h c hc

end Text

namespace Account

open Storage (Backend Call Exchange Failure Result Script fail)
open Storage.Script (Ends Ending)

/-- An administrative operation. -/
inductive Operation
  | list
  | create (email : String) (now : Nat)
  | display (email : String)
  | delete (email : String)

namespace Operation

/-- What a successful operation gives. -/
abbrev Value : Operation → Type
  | list => Option (List String)
  | create _ _ => Account
  | display _ => Account
  | delete _ => Unit

/-- What is to be done with a backend. -/
def script : (o : Operation) → Script (AdminResult o.Value)
  | list => listAll
  | create email now => Account.create email now
  | display email => Account.display email
  | delete email => Account.delete email

/-- Whether an operation takes an email address and gets a blank one. -/
def Blank : Operation → Prop
  | list => False
  | create email _ => Text.trimmed email = []
  | display email => Text.trimmed email = []
  | delete email => Text.trimmed email = []

/-- The call for data. -/
def dataCall : Operation → Call
  | list => .list kind
  | create email now => .put kind email (Account.new email now).toValue
  | display email => .get kind email
  | delete email => .delete kind email

/-- What the reply to the call for data is made into; a record may not be that of an account. -/
def read : (o : Operation) → o.dataCall.Reply → AdminResult o.Value
  | list, keys => .ok (if keys.isEmpty then none else some keys)
  | create email now, _ => .ok (Account.new email now)
  | display _, v => (ofValue v).mapError fun m => .storage (.illTyped m)
  | delete _, _ => .ok ()

end Operation

/-! ### What comes of a session -/

variable {α : Type} {c : Call} {read : c.Reply → AdminResult α}

/-- What comes of a session that opened the backend, from the results of the call for data and of
    closing. An error of the call for data, or of reading its reply, counts more than one of
    closing. -/
inductive Verdict (read : c.Reply → AdminResult α) :
    Result c.Reply → Result Unit → Ending (AdminResult α) → Prop
  | callPanicked (closed : Result Unit) : Verdict read (.error .panic) closed .panic
  | closePanicked (r : Result c.Reply) : Verdict read r (.error .panic) .panic
  | callFailed (e : Storage.Error) {closed : Result Unit} (h : closed ≠ .error .panic) :
    Verdict read (fail e) closed (.value (.error (.ofStorage e)))
  | unread {reply : c.Reply} {e : AdminError} {closed : Result Unit} (hread : read reply = .error e)
    (h : closed ≠ .error .panic) : Verdict read (.ok reply) closed (.value (.error e))
  | closeFailed {reply : c.Reply} {a : α} (hread : read reply = .ok a) (e : Storage.Error) :
    Verdict read (.ok reply) (fail e) (.value (.error (.ofStorage e)))
  | value {reply : c.Reply} {a : α} (hread : read reply = .ok a) :
    Verdict read (.ok reply) (.ok ()) (.value (.ok a))

/-- How a session goes: what passes between it and the backend, and what comes of it. -/
inductive Held (c : Call) (read : c.Reply → AdminResult α) :
    List Exchange → Ending (AdminResult α) → Prop
  | refused (e : Storage.Error) :
    Held c read [⟨.openStore, fail e⟩] (.value (.error (.ofStorage e)))
  | openPanicked : Held c read [⟨.openStore, .error .panic⟩] .panic
  | closed {r : Result c.Reply} {closed : Result Unit} {x : Ending (AdminResult α)}
    (verdict : Verdict read r closed x) :
    Held c read [⟨.openStore, .ok ()⟩, ⟨c, r⟩, ⟨.closeStore, closed⟩] x

/-- The outcome of closing a session is joined with what its call came to. -/
theorem verdict_of_joinClose {reply : c.Reply} {closed : Result Unit} {es : List Exchange}
    {x : Ending (AdminResult α)} (h : Ends (joinClose (read reply) closed) es x) :
    es = [] ∧ Verdict read (.ok reply) closed x := by
  -- A panic goes before everything, and what the operation itself has to say before a failed
  -- closing.
  match closed with
  | .error .panic =>
    cases h
    exact ⟨rfl, .closePanicked _⟩
  | .error (.error e) =>
    cases hread : read reply with
    | error e' =>
      rw [hread] at h
      cases h
      exact ⟨rfl, .unread hread nofun⟩
    | ok a =>
      rw [hread] at h
      cases h
      exact ⟨rfl, .closeFailed hread e⟩
  | .ok () =>
    cases hread : read reply with
    | error e =>
      rw [hread] at h
      cases h
      exact ⟨rfl, .unread hread nofun⟩
    | ok a =>
      rw [hread] at h
      cases h
      exact ⟨rfl, .value hread⟩

/-- A failed call is reported, whatever becomes of the closing. -/
theorem verdict_of_callFailed (read : c.Reply → AdminResult α) {e : Storage.Error}
    {closed : Result Unit} {es : List Exchange} {x : Ending (AdminResult α)}
    (h : Ends (joinClose (.error (.ofStorage e) : AdminResult α) closed) es x) :
    es = [] ∧ Verdict read (fail e) closed x := by
  match closed with
  | .error .panic =>
    cases h
    exact ⟨rfl, .closePanicked _⟩
  | .error (.error _) =>
    cases h
    exact ⟨rfl, .callFailed e nofun⟩
  | .ok () =>
    cases h
    exact ⟨rfl, .callFailed e nofun⟩

/-- A session, whatever its calls result in. -/
theorem held_of_ends {es : List Exchange} {x : Ending (AdminResult α)}
    (h : Ends (session c read) es x) : Held c read es x := by
  rw [session] at h
  cases h with
  | ask opened rest =>
    -- Only a backend that was opened is called again.
    match opened with
    | .error .panic =>
      cases rest
      exact .openPanicked
    | .error (.error e) =>
      cases rest
      exact .refused e
    | .ok () =>
      cases rest with
      | ask r rest =>
        match r with
        | .error .panic =>
          cases rest with
          | ask closed rest =>
            cases rest
            exact .closed (.callPanicked closed)
        | .error (.error e) =>
          cases rest with
          | ask closed rest =>
            obtain ⟨rfl, hverdict⟩ := verdict_of_callFailed read rest
            exact .closed hverdict
        | .ok reply =>
          cases rest with
          | ask closed rest =>
            obtain ⟨rfl, hverdict⟩ := verdict_of_joinClose rest
            exact .closed hverdict

/-! ### Operations -/

/-- An operation with a blank email address asks nothing of the backend; any other is a session. -/
structure InOrder (o : Operation) (es : List Exchange) (x : Ending (AdminResult o.Value)) :
    Prop where
  blank : o.Blank → es = [] ∧ x = .value (.error .missingEmail)
  session : ¬o.Blank → Held o.dataCall o.read es x

/-- A blank email address is refused without a call, and any other goes on. -/
theorem ends_requireEmail {email : String} {p : Script (AdminResult α)} {es : List Exchange}
    {x : Ending (AdminResult α)} (h : Ends (requireEmail email p) es x) :
    (Text.trimmed email = [] → es = [] ∧ x = .value (.error .missingEmail)) ∧
      (Text.trimmed email ≠ [] → Ends p es x) := by
  rw [requireEmail] at h
  split at h
  · next hblank =>
    rw [Text.isBlank_iff_trimmed] at hblank
    cases h
    exact ⟨fun _ => ⟨rfl, rfl⟩, fun hne => absurd hblank hne⟩
  · next hblank =>
    rw [Text.isBlank_iff_trimmed] at hblank
    exact ⟨fun heq => absurd heq hblank, fun _ => h⟩

/-- Every way in which an operation ends is in order. -/
theorem inOrder_of_ends {o : Operation} {es : List Exchange} {x : Ending (AdminResult o.Value)}
    (h : Ends o.script es x) : InOrder o es x := by
  cases o with
  | list => exact ⟨False.elim, fun _ => held_of_ends h⟩
  | create | display | delete =>
    obtain ⟨hblank, hsession⟩ := ends_requireEmail h
    exact ⟨hblank, fun hne => held_of_ends (hsession hne)⟩

/-- A record that is not found is an account that is not found, of any kind. -/
theorem AdminError.ofStorage_eq_notFound_iff {e : Storage.Error} {key : String} :
    AdminError.ofStorage e = .notFound key ↔ ∃ kind, e = .notFound kind key := by
  cases e <;> simp [AdminError.ofStorage]

/-- All other errors of the storage are reported as they are. -/
theorem AdminError.ofStorage_eq_storage_iff {e e' : Storage.Error} :
    AdminError.ofStorage e = .storage e' ↔ e = e' ∧ e.isNotFound = false := by
  cases e <;> simp [AdminError.ofStorage, Storage.Error.isNotFound]

/-- Every operation is in order, whatever its calls result in, and so on every backend. Of the
    errors of storage only the one for a missing record appears as another. -/
theorem sessions_in_order :
    (∀ (o : Operation) (es : List Exchange) (x : Ending (AdminResult o.Value)),
      Ends o.script es x → InOrder o es x) ∧
    (∀ {σ : Type} [Backend σ] (o : Operation) (s : σ),
      Ends o.script (o.script.exchanges s) (o.script.run s).1 ∧
        InOrder o (o.script.exchanges s) (o.script.run s).1) ∧
    ∀ e : Storage.Error,
      (∀ key, AdminError.ofStorage e = .notFound key ↔ ∃ kind, e = .notFound kind key) ∧
      ∀ e', AdminError.ofStorage e = .storage e' ↔ e = e' ∧ e.isNotFound = false := by
  refine ⟨fun o es x h => inOrder_of_ends h, fun o s => ?_, fun e => ?_⟩
  · have hends := o.script.ends_run s
    exact ⟨hends, inOrder_of_ends hends⟩
  · exact ⟨fun key => AdminError.ofStorage_eq_notFound_iff,
      fun e' => AdminError.ofStorage_eq_storage_iff⟩

/-- Where both the call and the closing fail, the session is closed once and reports the call. An em
    space is no email address. -/
theorem sessions_in_order_failing :
    let w : Storage.Watched Storage.Memory := { behind := {}, faults := [.onCall "list", .onClose] }
    let failed : Ending (AdminResult Operation.list.Value) :=
      .value (.error (.storage (.system (.other "list failed"))))
    Operation.list.script.run w = (failed, { w with opens := 1, closes := 1 }) ∧
      Held (.list kind) Operation.list.read
        [⟨.openStore, .ok ()⟩, ⟨.list kind, Storage.Watched.ordered "list"⟩,
          ⟨.closeStore, Storage.Watched.ordered "close"⟩] failed ∧
      Ends (Operation.delete "\u2003").script [] (.value (.error .missingEmail)) ∧
      InOrder (.delete "\u2003") [] (.value (.error .missingEmail)) := by
  intro w failed
  have hblank : Ends (Operation.delete "\u2003").script [] (.value (.error .missingEmail)) := by
    have hscript : (Operation.delete "\u2003").script = .done (.error .missingEmail) := by rfl
    rw [hscript]
    exact .done _
  exact ⟨by rfl, (sessions_in_order.2.1 .list w).2.session not_false, hblank,
    sessions_in_order.1 _ _ _ hblank⟩

end Account

end Gatehouse
