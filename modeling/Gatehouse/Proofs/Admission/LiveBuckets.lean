import Gatehouse.Proofs.Admission.Bookkeeping
import Gatehouse.Proofs.Admission.Isolation
import Gatehouse.Proofs.Admission.Levels

/-!
# The live buckets of a gate

Whatever comes to a gate, and however its clock readings jump, the buckets that are live are in
order: each belongs to a route that governs itself and to the quota that every request for it was
governed by, holds neither less than nothing nor more than the capacity, and has the largest reading
of these requests as its moment. So a sweep never meets a bucket without a quota, and it drops the
buckets that are full after long enough, and these only.

## Key results

- `Bucket.idle_iff`: when a bucket is idle, with a sweep at any reading
- `Gate.exists_since_after`: the requests for a live bucket since it came into being
- `live_buckets_sound`: every live bucket after every history, and every sweep of it
-/

namespace Gatehouse.Admission

open Http (Method)

/-! ## Idle buckets -/

namespace Bucket

variable {b : Bucket Rat} {q : Quota Rat}

/-- A refilled bucket is full if and only if enough has flowed in. -/
theorem tokens_refill_eq_iff (b : Bucket Rat) (q : Quota Rat) (now : Nat) :
    (b.refill q now).tokens = q.capacity ↔ q.capacity ≤ b.tokensAt q now := by
  rw [tokens_refill, ← tokensAt_eq]
  exact min_eq_right_iff

/-- A bucket that is not full between requests is idle if and only if it was left alone for long
    enough and is full when it is refilled. -/
theorem idle_iff (h : Level q b) (maxIdle now : Nat) :
    b.idle q maxIdle now = true ↔
      b.updated + maxIdle ≤ now ∧ (b.refill q now).tokens = q.capacity := by
  rw [tokens_refill_eq_iff]
  simp only [idle, Bool.and_eq_true, decide_eq_true_eq, atMost_iff]
  by_cases hnow : b.updated ≤ now
  · -- the time since the last request is what the clock says
    have hspan : maxIdle ≤ now - b.updated ↔ b.updated + maxIdle ≤ now := by omega
    rw [hspan]
  · -- a sweep with an earlier reading finds that nothing has flowed in
    have hnotFull : ¬q.capacity ≤ b.tokensAt q now := by
      rw [tokensAt_eq, Nat.sub_eq_zero_of_le (by omega), span_zero, zero_mul, add_zero]
      exact not_le.2 h.2
    simp only [hnotFull, and_false]

end Bucket

/-! ## Since a bucket came into being -/

namespace Gate

variable {α : Type} [TokenArith α] {t : Table α} {route : Route} {client : String}

/-- A bucket is there after each of the events. -/
def Holds (g : Gate α) (key : Route × String) : List Event → Prop
  | [] => True
  | e :: events => (g.meet e).buckets.get? key ≠ none ∧ Holds (g.meet e) key events

/-- The events of a history since a bucket came into being: it was not there in front of them, and
    is there after each of them. -/
def Since (t : Table α) (key : Route × String) (events since : List Event) : Prop :=
  ∃ before, events = before ++ since ∧
    ((ofTable t).after before).buckets.get? key = none ∧ ((ofTable t).after before).Holds key since

/-- Events behind others are met by the gate that these leave. -/
theorem after_append (g : Gate α) (events events' : List Event) :
    g.after (events ++ events') = (g.after events).after events' := List.foldl_append

/-- A bucket is there all the time if it is through both parts of a history. -/
theorem holds_append (g : Gate α) (key : Route × String) (events events' : List Event) :
    g.Holds key (events ++ events') ↔ g.Holds key events ∧ (g.after events).Holds key events' := by
  induction events generalizing g with
  | nil => simp only [List.nil_append, Holds, after_nil, true_and]
  | cons e events ih => rw [List.cons_append, Holds, ih, Holds, after_cons, and_assoc]

/-- The bucket came into being with the last event. -/
theorem Since.born {events : List Event} {e : Event} {key : Route × String}
    (habsent : ((ofTable t).after events).buckets.get? key = none)
    (hthere : (((ofTable t).after events).meet e).buckets.get? key ≠ none) :
    Since t key (events ++ [e]) [e] :=
  ⟨events, rfl, habsent, hthere, trivial⟩

/-- The bucket is still there after one more event. -/
theorem Since.snoc {events since : List Event} {e : Event} {key : Route × String}
    (h : Since t key events since)
    (hthere : (((ofTable t).after events).meet e).buckets.get? key ≠ none) :
    Since t key (events ++ [e]) (since ++ [e]) := by
  obtain ⟨before, rfl, habsent, hholds⟩ := h
  refine ⟨before, List.append_assoc before since [e], habsent, ?_⟩
  rw [holds_append]
  refine ⟨hholds, ?_, trivial⟩
  rwa [← after_append]

/-! ### The moment of a bucket -/

/-- The readings of the requests of a client on a route. -/
def readings {α : Type} (t : Table α) (route : Route) (client : String) (events : List Event) :
    Set Nat :=
  {now | ∃ e ∈ events, e.concerns t route client = true ∧ e.reading = now}

omit [TokenArith α] in
/-- The readings of a history are those of its parts. -/
theorem readings_append (events events' : List Event) :
    readings t route client (events ++ events') =
      readings t route client events ∪ readings t route client events' := by
  ext now
  simp only [readings, Set.mem_ofPred_eq, List.mem_append, Set.mem_union, or_and_right, exists_or]

omit [TokenArith α] in
/-- A request of the client on the route counts with its reading. -/
theorem readings_of_concerns {e : Event} (h : e.concerns t route client = true) :
    readings t route client [e] = {e.reading} := by
  ext now
  simp only [readings, List.mem_singleton, exists_eq_left, h, true_and, Set.mem_ofPred_eq,
    Set.mem_singleton_iff]
  exact eq_comm

omit [TokenArith α] in
/-- Other events do not count. -/
theorem readings_of_not_concerns {e : Event} (h : ¬e.concerns t route client = true) :
    readings t route client [e] = ∅ := by
  ext now
  simp [readings, h]

/-- The moment of a bucket after a request for it. -/
theorem updated_meet {g : Gate Rat} {t : Table Rat} (hg : g.table = t) {e : Event}
    (hmine : e.concerns t route client = true) {b : Bucket Rat}
    (hb : (g.meet e).buckets.get? (route, client) = some b) :
    b.updated = match g.buckets.get? (route, client) with
      | none => e.reading
      | some b' => max b'.updated e.reading := by
  subst hg
  cases e with
  | sweep maxIdle now => cases hmine
  | request c method path now =>
    obtain ⟨rfl, q, hlook⟩ := Event.concerns_request_iff.1 hmine
    rw [meet, check_eq hlook, Dict.get?_insert_self, Option.some.injEq] at hb
    rw [← hb, updated_spend, bucketAt, Bucket.updated_refill]
    cases hcell : g.buckets.get? (route, c) with
    | none => exact max_self now
    | some b' => rfl

/-- An event that is no request for a bucket leaves it as it is, if it leaves it there. -/
theorem get?_of_meet {g : Gate α} (hg : g.table = t) {e : Event}
    (hmine : ¬e.concerns t route client = true) {b : Bucket α}
    (hb : (g.meet e).buckets.get? (route, client) = some b) :
    g.buckets.get? (route, client) = some b := by
  subst hg
  cases e with
  | request c method path now => rwa [meet, get?_check_of_not_concerns hmine] at hb
  | sweep maxIdle now =>
    rw [meet, get?_sweep, Option.filter_eq_some_iff] at hb
    exact hb.1

/-- A live bucket has the largest reading of the requests for it, since it came into being, as its
    moment. -/
theorem exists_since_after (t : Table Rat) (events : List Event) {b : Bucket Rat}
    (hb : ((ofTable t).after events).buckets.get? (route, client) = some b) :
    ∃ since, Since t (route, client) events since ∧
      IsGreatest (readings t route client since) b.updated := by
  -- By induction on the history, from its last event.
  induction events using List.reverseRecOn generalizing b with
  | nil => cases hb
  | append_singleton events e ih =>
    have htable : ((ofTable t).after events).table = t := table_after _ events
    rw [after_append, after_cons, after_nil] at hb
    have hthere : (((ofTable t).after events).meet e).buckets.get? (route, client) ≠ none := by
      rw [hb]
      exact Option.some_ne_none b
    by_cases hmine : e.concerns t route client = true
    · have hupdated := updated_meet htable hmine hb
      cases hcell : ((ofTable t).after events).buckets.get? (route, client) with
      | none =>
        -- The request found no bucket, so its reading is the first and only one.
        rw [hcell] at hupdated
        refine ⟨[e], .born hcell hthere, ?_⟩
        rw [readings_of_concerns hmine, hupdated]
        exact isGreatest_singleton
      | some b' =>
        rw [hcell] at hupdated
        obtain ⟨since, hsince, hgreatest⟩ := ih hcell
        refine ⟨since ++ [e], hsince.snoc hthere, ?_⟩
        rw [readings_append, readings_of_concerns hmine, hupdated]
        exact hgreatest.union isGreatest_singleton
    · -- the bucket was there before and is as it was, and there is no new reading
      have hcell := get?_of_meet htable hmine hb
      obtain ⟨since, hsince, hgreatest⟩ := ih hcell
      refine ⟨since ++ [e], hsince.snoc hthere, ?_⟩
      rw [readings_append, readings_of_not_concerns hmine, Set.union_empty]
      exact hgreatest

end Gate

/-! ## Every live bucket -/

/-- A live bucket of a client on a route after a history, as it ought to be. -/
structure Bucket.Tended (t : Table Rat) (events : List Event) (route : Route) (client : String)
    (q : Quota Rat) (b : Bucket Rat) : Prop where
  isEntry : (route, q) ∈ t.entries
  /-- The route governs itself, so a sweep finds a quota, and this one. -/
  governsItself : t.lookup route.method route.pathPrefix = some (route, q)
  notInDebt : 0 ≤ b.tokens
  atMostFull : b.tokens ≤ q.burst + 1
  /-- One quota governed all requests since the bucket came into being, and the last moment is the
      largest of their readings. -/
  since : ∃ since, Gate.Since t (route, client) events since ∧
    (∀ method path now q', .request client method path now ∈ since →
      t.lookup method path = some (route, q') → q' = q) ∧
    IsGreatest (Gate.readings t route client since) b.updated

/-- Every live bucket is as it ought to be, in whatever order the clock is read. -/
theorem Gate.tended_after {t : Table Rat} (hpos : ∀ e ∈ t.entries, 0 < e.2.perMinute)
    {events : List Event} {route : Route} {client : String} {b : Bucket Rat}
    (hb : ((ofTable t).after events).buckets.get? (route, client) = some b) :
    ∃ q, b.Tended t events route client q := by
  -- There was a request that the route governed, so the route governs itself.
  obtain ⟨e, -, hconcerns⟩ := exists_concerns_of_get?_after rfl hb rfl
  obtain ⟨q, hlook⟩ : ∃ q, t.lookup route.method route.pathPrefix = some (route, q) := by
    cases e with
    | sweep maxIdle now => cases hconcerns
    | request c method path now =>
      obtain ⟨-, q, hq⟩ := Event.concerns_request_iff.1 hconcerns
      exact ⟨q, Table.lookup_self hq⟩
  have hmem := Table.mem_of_lookup hlook
  have hlevel := level_after hlook (hpos _ hmem) client events b hb
  obtain ⟨since, hsince, hgreatest⟩ := exists_since_after t events hb
  refine ⟨q, hmem, hlook, hlevel.1, ?_, since, hsince, ?_, hgreatest⟩
  · rw [← Quota.capacity_eq]
    exact hlevel.2.le
  · intro method path now q' _ hq'
    exact Table.quota_unique hq' hlook

/-- What is always so of a gate: its live buckets are as they ought to be, no two of them are of one
    client on one route, and a sweep drops those that were left alone for long enough and are full
    when they are refilled, says how many they were, and leaves the others as they are. -/
theorem live_buckets_sound (t : Table Rat) (hpos : ∀ e ∈ t.entries, 0 < e.2.perMinute)
    (events : List Event) :
    let g := (Gate.ofTable t).after events
    (∀ route client b, ((route, client), b) ∈ g.buckets.entries →
      ∃ q, b.Tended t events route client q) ∧
    (g.buckets.entries.map Prod.fst).Nodup ∧
    ∀ maxIdle now,
      (∀ route client b, ((route, client), b) ∈ (g.sweep maxIdle now).2.buckets.entries ↔
        ((route, client), b) ∈ g.buckets.entries ∧
          ¬∃ q, t.lookup route.method route.pathPrefix = some (route, q) ∧
            b.updated + maxIdle ≤ now ∧ (b.refill q now).tokens = q.burst + 1) ∧
      (g.sweep maxIdle now).2.size + (g.sweep maxIdle now).1 = g.size := by
  intro g
  have htable : g.table = t := Gate.table_after _ events
  refine ⟨fun route client b hb => ?_, g.buckets.nodup, fun maxIdle now => ⟨?_, ?_⟩⟩
  · exact Gate.tended_after hpos ((g.buckets.mem_entries_iff _ _).1 hb)
  · intro route client b
    rw [Dict.mem_entries_iff, Dict.mem_entries_iff, Gate.get?_sweep, Option.filter_eq_some_iff]
    refine and_congr_right fun hb => ?_
    obtain ⟨q, htended⟩ := Gate.tended_after hpos hb
    have hlook := htended.governsItself
    have hlevel := Gate.level_after hlook (hpos _ htended.isEntry) client events b hb
    -- Being stale is being idle under the one quota that the table has for the route.
    have hstale : Gate.stale g.table maxIdle now route b = true ↔
        b.updated + maxIdle ≤ now ∧ (b.refill q now).tokens = q.burst + 1 := by
      simp only [Gate.stale, htable, hlook]
      rw [Bucket.idle_iff hlevel, Quota.capacity_eq]
    simp only [hlook, Option.some.injEq, Prod.mk.injEq, true_and, exists_eq_left']
    rw [← hstale, Bool.not_eq_eq_eq_not, Bool.not_true, Bool.not_eq_true]
  · exact Gate.size_sweep g maxIdle now

/-- A request with an earlier reading leaves the moment of a bucket alone, and so does a sweep with
    an earlier reading the bucket. Two seconds after that moment it is full again and dropped, while
    a bucket with a longer beginning, asked for later, stays. -/
theorem live_buckets_sound_nested :
    let route : Route := ⟨.post, "/auth/"⟩
    let client := "10.0.0.1"
    let events : List Event := [
      .request client .post "/auth/login" 5000000000,
      .request client .post "/auth/admin/login" 6000000000,
      .request client .post "/auth/reset" 2000000000,
      .sweep 0 3000000000]
    let g := (Gate.ofTable nestedTable).after events
    (∀ e ∈ nestedTable.entries, 0 < e.2.perMinute) ∧
      ((route, client), ⟨0, 5000000000⟩) ∈ g.buckets.entries ∧
      Bucket.Tended nestedTable events route client ⟨60, 1⟩ ⟨0, 5000000000⟩ ∧
      ((route, client), ⟨0, 5000000000⟩) ∉ (g.sweep 2000000000 7000000000).2.buckets.entries ∧
      g.size = 2 ∧ (g.sweep 2000000000 7000000000).2.size = 1 := by
  intro route client events g
  have hpos : ∀ e ∈ nestedTable.entries, 0 < e.2.perMinute := by simp [nestedTable]
  obtain ⟨htended, -, hsweep⟩ := live_buckets_sound nestedTable hpos events
  have hlook : nestedTable.lookup .post "/auth/" = some (route, ⟨60, 1⟩) := by rfl
  have hlive : ((route, client), ⟨0, 5000000000⟩) ∈ g.buckets.entries := by
    have hcell : (g.buckets.get? (route, client)).map (fun b => (b.tokens, b.updated)) =
        some (0, 5000000000) := by decide +kernel
    obtain ⟨b, hb, heq⟩ := Option.map_eq_some_iff.1 hcell
    obtain ⟨htokens, hupdated⟩ := Prod.mk.inj heq
    obtain rfl : b = ⟨0, 5000000000⟩ := Bucket.eq_of_tokens_of_updated htokens hupdated
    exact (g.buckets.mem_entries_iff _ _).2 hb
  obtain ⟨q, hq⟩ := htended route client _ hlive
  obtain rfl : ⟨60, 1⟩ = q := Table.quota_unique hlook hq.governsItself
  refine ⟨hpos, hlive, hq, fun hstays => ?_, by decide +kernel, by decide +kernel⟩
  -- What has flowed in within two seconds is the whole capacity.
  refine (((hsweep 2000000000 7000000000).1 route client _).1 hstays).2
    ⟨⟨60, 1⟩, hlook, by decide, ?_⟩
  decide +kernel

end Gatehouse.Admission
