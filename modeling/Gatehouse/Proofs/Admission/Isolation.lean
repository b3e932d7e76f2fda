import Gatehouse.Proofs.Admission.ExactBucket

/-!
# Clients and routes keep to themselves

The decisions about one client on one route depend on one bucket, and nothing touches this bucket
but the requests of the client that the route governs, and the sweeps. A sweep looks at every
bucket apart from the others. So whatever else comes to the gate, other clients, other routes whose
beginnings overlap, requests without a quota, can be left out, and nobody on this route can tell.

## Key results

- `Gate.SameBucket`: two gates cannot be told apart by a client on a route
- `Gate.SameBucket.check` / `Gate.SameBucket.check_left` / `Gate.SameBucket.sweep`: one event
- `Gate.SameBucket.decisions`: all events, with the foreign ones and without them
- `Gate.check_congr`: requests with one governing route are one to the gate
- `decisions_keep_apart`: the decisions about a client on a route are its own affair
-/

namespace Gatehouse.Admission

open Http (Method)

variable {α : Type}

/-- Whether an event may touch the bucket of a client on a route: a request of theirs, or a
    sweep. -/
def Event.touches (t : Table α) (route : Route) (client : String) (e : Event) : Bool :=
  e.concerns t route client || !e.isRequest

namespace Gate

variable {route : Route} {client : String} {g g' : Gate α}

/-- Gates with one table that have the same bucket for a client on a route, or none. -/
structure SameBucket (route : Route) (client : String) (g g' : Gate α) : Prop where
  table : g.table = g'.table
  bucket : g.buckets.get? (route, client) = g'.buckets.get? (route, client)

/-- Every gate has the bucket that it has. -/
theorem SameBucket.refl (route : Route) (client : String) (g : Gate α) :
    SameBucket route client g g := ⟨rfl, rfl⟩

variable [TokenArith α]

/-- Gates that a client on a route cannot tell apart decide its requests alike. -/
theorem SameBucket.check (h : SameBucket route client g g') {method : Method} {path : String}
    {q : Quota α} (hlook : g.table.lookup method path = some (route, q)) (now : Nat) :
    (g.check client method path now).1 = (g'.check client method path now).1 ∧
      SameBucket route client (g.check client method path now).2
        (g'.check client method path now).2 := by
  have hlook' : g'.table.lookup method path = some (route, q) := h.table ▸ hlook
  have hbucket : g.bucketAt route q client now = g'.bucketAt route q client now := by
    rw [bucketAt, bucketAt, h.bucket]
  rw [check_eq hlook, check_eq hlook', hbucket]
  refine ⟨rfl, h.table, ?_⟩
  rw [Dict.get?_insert_self, Dict.get?_insert_self]

/-- A foreign request to one of two gates goes unnoticed. -/
theorem SameBucket.check_left (h : SameBucket route client g g') {c : String} {method : Method}
    {path : String} {now : Nat}
    (hforeign : ¬(Event.request c method path now).concerns g.table route client = true) :
    SameBucket route client (g.check c method path now).2 g' where
  table := by rw [table_check, h.table]
  bucket := by rw [get?_check_of_not_concerns hforeign, h.bucket]

/-- A sweep keeps or drops a bucket without a look at the others. -/
theorem SameBucket.sweep (h : SameBucket route client g g') (maxIdle now : Nat) :
    SameBucket route client (g.sweep maxIdle now).2 (g'.sweep maxIdle now).2 where
  table := h.table
  bucket := by rw [get?_sweep, get?_sweep, h.bucket, h.table]

/-- Of two gates that a client on a route cannot tell apart, one may meet foreign requests on top:
    the requests of the client are decided alike. -/
theorem SameBucket.decisions {t : Table α} (h : SameBucket route client g g') (hg : g.table = t)
    (events : List Event) :
    (g.decisions events).filter (fun d => d.1.concerns t route client) =
      g'.decisions (events.filter (Event.touches t route client)) := by
  -- Induction on the events: each of them leaves gates that cannot be told apart.
  induction events generalizing g g' with
  | nil => rfl
  | cons e events ih =>
    cases e with
    | sweep maxIdle now =>
      have htouches : (Event.sweep maxIdle now).touches t route client = true := rfl
      rw [decisions_sweep, List.filter_cons_of_pos htouches, decisions_sweep]
      exact ih (h.sweep maxIdle now) hg
    | request c method path now =>
      have hg' : (g.check c method path now).2.table = t := by rw [table_check, hg]
      rw [decisions_request]
      by_cases hmine : (Event.request c method path now).concerns t route client = true
      · have htouches : (Event.request c method path now).touches t route client = true := by
          rw [Event.touches, hmine, Bool.true_or]
        obtain ⟨rfl, q, hlook⟩ := Event.concerns_request_iff.1 hmine
        obtain ⟨hverdict, hsame⟩ := h.check (hg ▸ hlook) now
        simp only [List.filter_cons, hmine, htouches, if_true]
        rw [decisions_request, hverdict, ih hsame hg']
      · have htouches : ¬(Event.request c method path now).touches t route client = true := by
          rw [Event.touches, Bool.or_eq_true]
          exact fun h' => h'.elim hmine nofun
        simp only [List.filter_cons, hmine, htouches, Bool.false_eq_true, if_false]
        exact ih (h.check_left (hg ▸ hmine)) hg'

/-- To the gate, two requests of a client that one route governs are the same request. -/
theorem check_congr {q q' : Quota α} {method method' : Method} {path path' : String}
    (h : g.table.lookup method path = some (route, q))
    (h' : g.table.lookup method' path' = some (route, q')) (client : String) (now : Nat) :
    g.check client method path now = g.check client method' path' now := by
  obtain rfl := Table.quota_unique h h'
  rw [check_eq h, check_eq h']

/-- Only a request of a client that a route governs brings a bucket for them into being. -/
theorem exists_concerns_of_get?_after {t : Table α} (hg : g.table = t) {events : List Event}
    {b : Bucket α} (hb : (g.after events).buckets.get? (route, client) = some b)
    (hfresh : g.buckets.get? (route, client) = none) :
    ∃ e ∈ events, e.concerns t route client = true := by
  induction events generalizing g with
  | nil =>
    rw [after_nil, hfresh] at hb
    cases hb
  | cons e events ih =>
    by_cases hmine : e.concerns t route client = true
    · exact ⟨e, List.mem_cons_self, hmine⟩
    have hnone : (g.meet e).buckets.get? (route, client) = none := by
      cases e with
      | request c method path now =>
        rw [meet, get?_check_of_not_concerns (hg ▸ hmine), hfresh]
      | sweep maxIdle now =>
        rw [meet, get?_sweep, hfresh]
        rfl
    obtain ⟨e', he', hconcerns⟩ := ih ((g.table_meet e).trans hg) hb hnone
    exact ⟨e', List.mem_cons_of_mem e he', hconcerns⟩

end Gate

/-- What a gate decides about a client on a route is their own affair: it is the same without all
    that does not touch their bucket, so two histories that agree on what touches it agree on these
    decisions. The requests that one route governs share one budget, whatever their paths. A request
    without a quota passes and leaves the gate as it is, and no bucket is there without a request
    for it. -/
theorem decisions_keep_apart [TokenArith α] (t : Table α) :
    (∀ route client events,
      ((Gate.ofTable t).decisions events).filter (fun d => d.1.concerns t route client) =
        (Gate.ofTable t).decisions (events.filter (Event.touches t route client))) ∧
    (∀ route client events events',
      events.filter (Event.touches t route client) =
          events'.filter (Event.touches t route client) →
        ((Gate.ofTable t).decisions events).filter (fun d => d.1.concerns t route client) =
          ((Gate.ofTable t).decisions events').filter fun d => d.1.concerns t route client) ∧
    (∀ route q q' method method' path path', t.lookup method path = some (route, q) →
      t.lookup method' path' = some (route, q') → ∀ events client now,
        ((Gate.ofTable t).after events).check client method path now =
          ((Gate.ofTable t).after events).check client method' path' now) ∧
    (∀ method path, t.lookup method path = none → ∀ events client now,
      ((Gate.ofTable t).after events).check client method path now =
        (.unlimited, (Gate.ofTable t).after events)) ∧
    ∀ events route client b,
      ((Gate.ofTable t).after events).buckets.get? (route, client) = some b →
        ∃ e ∈ events, e.concerns t route client = true := by
  have hown : ∀ route client events,
      ((Gate.ofTable t).decisions events).filter (fun d => d.1.concerns t route client) =
        (Gate.ofTable t).decisions (events.filter (Event.touches t route client)) :=
    fun route client events =>
      (Gate.SameBucket.refl route client (Gate.ofTable t)).decisions rfl events
  have htable : ∀ events, ((Gate.ofTable t).after events).table = t :=
    fun events => Gate.table_after _ events
  refine ⟨hown, ?_, ?_, ?_, ?_⟩
  · intro route client events events' hsame
    rw [hown, hown, hsame]
  · intro route q q' method method' path path' h h' events client now
    exact Gate.check_congr ((htable events).symm ▸ h) ((htable events).symm ▸ h') client now
  · intro method path h events client now
    exact Gate.check_of_lookup_none ((htable events).symm ▸ h) client now
  · intro events route client b hb
    exact Gate.exists_concerns_of_get?_after rfl hb rfl

/-- Two attempts a second to sign in, but one to administer, and one to change a password. -/
def nestedTable : Table Rat :=
  ⟨[(⟨.post, "/auth/admin/"⟩, ⟨60, 0⟩), (⟨.post, "/auth/"⟩, ⟨60, 1⟩), (⟨.put, "/auth/"⟩, ⟨60, 0⟩)],
    by decide⟩

/-- Another client, a longer beginning, another method and a request without a quota come between
    the attempts of a client; its third attempt is refused either way. -/
theorem decisions_keep_apart_sign_in :
    let client := "10.0.0.1"
    let route : Route := ⟨.post, "/auth/"⟩
    let own : List Event := [
      .request client .post "/auth/login" 2000000000,
      .sweep 1000000000 2000000000,
      .request client .post "/auth/reset" 1000000000,
      .request client .post "/auth/login" 2000000000]
    let events : List Event := [
      .request client .post "/auth/login" 2000000000,
      .request "10.0.0.2" .post "/auth/login" 2000000000,
      .sweep 1000000000 2000000000,
      .request client .post "/auth/admin/login" 9000000000,
      .request client .post "/auth/reset" 1000000000,
      .request client .put "/auth/login" 9000000000,
      .request client .get "/health" 9000000000,
      .request client .post "/auth/login" 2000000000]
    events.filter (Event.touches nestedTable route client) =
        own.filter (Event.touches nestedTable route client) ∧
      ((Gate.ofTable nestedTable).decisions own).map Prod.snd =
        [.admitted, .admitted, .rejected route 1000000000] ∧
      ((Gate.ofTable nestedTable).decisions events).filter
          (fun d => d.1.concerns nestedTable route client) =
        ((Gate.ofTable nestedTable).decisions own).filter
          (fun d => d.1.concerns nestedTable route client) ∧
      nestedTable.lookup .post "/auth/login" = some (route, ⟨60, 1⟩) ∧
      nestedTable.lookup .post "/auth/reset" = some (route, ⟨60, 1⟩) ∧
      ((Gate.ofTable nestedTable).after own).check client .post "/auth/login" 2000000000 =
        ((Gate.ofTable nestedTable).after own).check client .post "/auth/reset" 2000000000 ∧
      nestedTable.lookup .get "/health" = none ∧
      ((Gate.ofTable nestedTable).after own).check client .get "/health" 2000000000 =
        (.unlimited, (Gate.ofTable nestedTable).after own) := by
  intro client route own events
  have hsame : events.filter (Event.touches nestedTable route client) =
      own.filter (Event.touches nestedTable route client) := by rfl
  have hlogin : nestedTable.lookup .post "/auth/login" = some (route, ⟨60, 1⟩) := by rfl
  have hreset : nestedTable.lookup .post "/auth/reset" = some (route, ⟨60, 1⟩) := by rfl
  have hhealth : nestedTable.lookup .get "/health" = none := by rfl
  obtain ⟨-, hagree, hshare, hpass, -⟩ := decisions_keep_apart nestedTable
  exact ⟨hsame, by decide +kernel, hagree route client events own hsame, hlogin, hreset,
    hshare route _ _ _ _ _ _ hlogin hreset own client 2000000000, hhealth,
    hpass _ _ hhealth own client 2000000000⟩

end Gatehouse.Admission
