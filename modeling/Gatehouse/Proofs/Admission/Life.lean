import Gatehouse.Admission.Gate
import Gatehouse.Proofs.Admission.Routing

/-!
# The life of a gate

Requests come to a gate, and sweeps between them, each with a clock reading of its own. A gate
decides about the requests one after the other, and what it decides about one depends on its
buckets only through the refilled bucket of the governing route and the client.

## Key results

- `Gate.check_eq`: a decision in terms of the refilled bucket
- `Gate.get?_check` / `Gate.get?_sweep`: what a request and a sweep do to one bucket
- `Gate.get?_check_of_not_concerns`: other requests leave a bucket alone
- `Gate.decisions_append`: a later request is decided by the gate that the earlier events left
-/

namespace Gatehouse.Admission

open Http (Method)

/-- What comes to a gate. -/
inductive Event
  | request (client : String) (method : Method) (path : String) (now : Nat)
  | sweep (maxIdle now : Nat)

namespace Event

/-- What the clock read. -/
def reading : Event → Nat
  | request _ _ _ now => now
  | sweep _ now => now

/-- Whether a request came. -/
def isRequest : Event → Bool
  | request _ _ _ _ => true
  | sweep _ _ => false

/-- Whether a request of a client came that a route governs. -/
def concerns {α : Type} (t : Table α) (route : Route) (client : String) : Event → Bool
  | request c method path _ => c = client && (t.lookup method path).map Prod.fst = some route
  | sweep _ _ => false

/-- A request concerns the client that makes it and the route that governs it. -/
theorem concerns_request_iff {α : Type} {t : Table α} {route : Route} {client c : String}
    {method : Method} {path : String} {now : Nat} :
    (request c method path now).concerns t route client = true ↔
      c = client ∧ ∃ q, t.lookup method path = some (route, q) := by
  unfold concerns
  simp only [Bool.and_eq_true, decide_eq_true_eq, Option.map_eq_some_iff, Prod.exists,
    exists_and_right, exists_eq_right]

end Event

namespace Bucket

variable {α : Type} [TokenArith α]

/-- Spends a token of a refilled bucket on a request that a route governs, if it holds one. -/
def spend (b : Bucket α) (route : Route) (q : Quota α) : Verdict × Bucket α :=
  match b.take? with
  | some b => (.admitted, b)
  | none =>
    match TokenArith.span? (b.wait q) with
    | some wait => (.rejected route wait, b)
    | none => (.unrepresentable route, b)

/-- A request is admitted if its bucket has a token. -/
theorem fst_spend_eq_admitted_iff (b : Bucket α) (route : Route) (q : Quota α) :
    (b.spend route q).1 = .admitted ↔ b.take?.isSome = true := by
  unfold spend
  cases b.take? with
  | some b' => exact iff_of_true rfl rfl
  | none =>
    cases TokenArith.span? (b.wait q) <;>
      exact iff_of_false (fun hv => by cases hv) Bool.false_ne_true

/-- A bucket that holds no token is left as it is. -/
theorem snd_spend (b : Bucket α) (route : Route) (q : Quota α) :
    (b.spend route q).2 = b.take?.getD b := by
  unfold spend
  cases b.take? with
  | some b' => rfl
  | none => cases TokenArith.span? (b.wait q) <;> rfl

end Bucket

namespace Gate

variable {α : Type} [TokenArith α]

/-- The gate after an event. -/
def meet (g : Gate α) : Event → Gate α
  | .request client method path now => (g.check client method path now).2
  | .sweep maxIdle now => (g.sweep maxIdle now).2

/-- The gate after events, one after the other. -/
def after (g : Gate α) (events : List Event) : Gate α := events.foldl meet g

/-- The requests among events, each with what the gate decided about it. -/
def decisions (g : Gate α) : List Event → List (Event × Verdict)
  | [] => []
  | .request client method path now :: events =>
    let (v, g) := g.check client method path now
    (.request client method path now, v) :: decisions g events
  | .sweep maxIdle now :: events => decisions (g.sweep maxIdle now).2 events

/-- No sweep among events takes out the bucket of a key. -/
def Keeps (g : Gate α) (key : Route × String) : List Event → Prop
  | [] => True
  | e :: events =>
    (e.isRequest = false → (g.meet e).buckets.get? key = g.buckets.get? key) ∧
      Keeps (g.meet e) key events

/-! ### One event -/

/-- A request draws from the bucket that its client has on the route, or from a full one. -/
theorem acquire_eq (g : Gate α) (route : Route) (q : Quota α) (client : String) (now : Nat) :
    g.acquire route q client now =
      (((g.bucketAt route q client now).spend route q).1,
        { g with
          buckets := g.buckets.insert (route, client)
            ((g.bucketAt route q client now).spend route q).2 }) := by
  simp only [acquire, Bucket.spend]
  cases (g.bucketAt route q client now).take? with
  | some b => rfl
  | none => cases TokenArith.span? ((g.bucketAt route q client now).wait q) <;> rfl

/-- A request that no route governs is not limited and leaves the gate alone. -/
theorem check_of_lookup_none {g : Gate α} {method : Method} {path : String}
    (h : g.table.lookup method path = none) (client : String) (now : Nat) :
    g.check client method path now = (.unlimited, g) := by
  simp only [check, h]

/-- A governed request is decided by the refilled bucket of its route and client. -/
theorem check_eq {g : Gate α} {method : Method} {path : String} {route : Route} {q : Quota α}
    (h : g.table.lookup method path = some (route, q)) (client : String) (now : Nat) :
    g.check client method path now =
      (((g.bucketAt route q client now).spend route q).1,
        { g with
          buckets := g.buckets.insert (route, client)
            ((g.bucketAt route q client now).spend route q).2 }) := by
  simp only [check, h, acquire_eq]

/-- A gate gives up if and only if a bucket is empty for a time that is no span. -/
theorem check_eq_unrepresentable_iff (g : Gate α) (client : String) (method : Method)
    (path : String) (now : Nat) (route : Route) :
    (g.check client method path now).1 = .unrepresentable route ↔
      ∃ q, g.table.lookup method path = some (route, q) ∧
        (g.bucketAt route q client now).take? = none ∧
        TokenArith.span? ((g.bucketAt route q client now).wait q) = none := by
  cases h : g.table.lookup method path with
  | none => simp [check_of_lookup_none h]
  | some e =>
    obtain ⟨route', q'⟩ := e
    simp only [check_eq h, Bucket.spend, Option.some.injEq, Prod.mk.injEq]
    constructor
    · intro hv
      -- A verdict tells the branch that was taken: no token, and no span for the wait.
      cases htake : (g.bucketAt route' q' client now).take? with
      | some b => simp [htake] at hv
      | none =>
        cases hspan : TokenArith.span? ((g.bucketAt route' q' client now).wait q') with
        | some wait => simp [htake, hspan] at hv
        | none =>
          simp only [htake, hspan, Verdict.unrepresentable.injEq] at hv
          subst hv
          exact ⟨q', ⟨rfl, rfl⟩, htake, hspan⟩
    · rintro ⟨q, ⟨rfl, rfl⟩, htake, hspan⟩
      simp only [htake, hspan]

/-- A request does not change the table. -/
@[simp] theorem table_check (g : Gate α) (client : String) (method : Method) (path : String)
    (now : Nat) : (g.check client method path now).2.table = g.table := by
  cases h : g.table.lookup method path with
  | none => rw [check_of_lookup_none h]
  | some e => rw [check_eq h]

/-- A sweep does not change the table. -/
@[simp] theorem table_sweep (g : Gate α) (maxIdle now : Nat) :
    (g.sweep maxIdle now).2.table = g.table := rfl

/-- No event changes the table. -/
@[simp] theorem table_meet (g : Gate α) (e : Event) : (g.meet e).table = g.table := by
  cases e <;> simp [meet]

/-- A request changes the bucket of its governing route and its client, and no other. -/
theorem get?_check (g : Gate α) (client : String) (method : Method) (path : String) (now : Nat)
    (key : Route × String) :
    (g.check client method path now).2.buckets.get? key =
      match g.table.lookup method path with
      | none => g.buckets.get? key
      | some (route, q) =>
        if key = (route, client) then some ((g.bucketAt route q client now).spend route q).2
        else g.buckets.get? key := by
  cases h : g.table.lookup method path with
  | none => rw [check_of_lookup_none h]
  | some e => rw [check_eq h, Dict.get?_insert]

/-- A request that does not concern a client on a route leaves their bucket as it is. -/
theorem get?_check_of_not_concerns {g : Gate α} {route : Route} {client c : String}
    {method : Method} {path : String} {now : Nat}
    (h : ¬(Event.request c method path now).concerns g.table route client = true) :
    (g.check c method path now).2.buckets.get? (route, client) =
      g.buckets.get? (route, client) := by
  rw [get?_check]
  cases hlook : g.table.lookup method path with
  | none => rfl
  | some e =>
    have hne : (route, client) ≠ (e.1, c) := by
      rintro ⟨⟩
      exact h (Event.concerns_request_iff.2 ⟨rfl, e.2, hlook⟩)
    exact if_neg hne

/-- A sweep takes out the stale buckets and leaves the others as they are. -/
theorem get?_sweep (g : Gate α) (maxIdle now : Nat) (key : Route × String) :
    (g.sweep maxIdle now).2.buckets.get? key =
      (g.buckets.get? key).filter fun b => !stale g.table maxIdle now key.1 b := by
  simp only [sweep, Dict.get?_filter]

/-- A sweep that comes too early for any bucket to have been idle for so long takes none out. -/
theorem get?_sweep_of_lt {g : Gate α} {route : Route} {q : Quota α}
    (h : g.table.lookup route.method route.pathPrefix = some (route, q)) {maxIdle now : Nat}
    (hlt : now < maxIdle) (client : String) :
    (g.sweep maxIdle now).2.buckets.get? (route, client) = g.buckets.get? (route, client) := by
  rw [get?_sweep]
  cases g.buckets.get? (route, client) with
  | none => rfl
  | some b =>
    -- No more time can have passed since the last request than since the clock began.
    have hidle : b.idle q maxIdle now = false := by
      simp only [Bucket.idle, Bool.and_eq_false_iff, decide_eq_false_iff_not]
      omega
    simp only [Option.filter_some, stale, h, hidle, Bool.not_false, if_true]

/-! ### One event after the other -/

/-- Without events the gate stays as it is. -/
@[simp] theorem after_nil (g : Gate α) : g.after [] = g := rfl

/-- The first event is met first. -/
@[simp] theorem after_cons (g : Gate α) (e : Event) (events : List Event) :
    g.after (e :: events) = (g.meet e).after events := rfl

/-- No history changes the table. -/
@[simp] theorem table_after (g : Gate α) (events : List Event) :
    (g.after events).table = g.table := by
  induction events generalizing g with
  | nil => rfl
  | cons e events ih => rw [after_cons, ih, table_meet]

/-- A request is decided with the gate that it finds, and leaves another one to those behind it. -/
@[simp] theorem decisions_request (g : Gate α) (client : String) (method : Method) (path : String)
    (now : Nat) (events : List Event) :
    g.decisions (.request client method path now :: events) =
      (.request client method path now, (g.check client method path now).1) ::
        (g.check client method path now).2.decisions events := rfl

/-- A sweep decides nothing, and leaves another gate to the requests behind it. -/
@[simp] theorem decisions_sweep (g : Gate α) (maxIdle now : Nat) (events : List Event) :
    g.decisions (.sweep maxIdle now :: events) = (g.sweep maxIdle now).2.decisions events := rfl

/-- Later events are decided by the gate that the earlier ones left. -/
theorem decisions_append (g : Gate α) (events events' : List Event) :
    g.decisions (events ++ events') = g.decisions events ++ (g.after events).decisions events' := by
  induction events generalizing g with
  | nil => rfl
  | cons e events ih =>
    -- A request adds its decision in front, a sweep adds none.
    cases e with
    | request client method path now =>
      rw [List.cons_append, decisions_request, ih, decisions_request]
      rfl
    | sweep maxIdle now =>
      rw [List.cons_append, decisions_sweep, ih, decisions_sweep]
      rfl

end Gate

end Gatehouse.Admission
