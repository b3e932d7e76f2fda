import Gatehouse.Proofs.Admission.Isolation
import Gatehouse.Proofs.Admission.Levels
import Gatehouse.Proofs.Admission.Windows

/-!
# Time that is counted twice

A sweep may come with a later reading than a request that reaches the gate behind it. It takes out a
bucket that is full at its own reading, and the late request brings the bucket into being again,
full, at the earlier one. The time between the two readings has then flowed into both buckets. This
overlap is all that a client can gain by sweeps, whatever the order of readings; but there is no
limit to it, since the same stretch of time can be counted again and again.

## Key results

- `Gate.overlap`: how much time is counted twice
- `Books.request` / `Books.sweep`: what a request and a sweep leave of the balance of admitted
  requests
- `Gate.overlap_eq_zero`: no time is counted twice unless a request is late behind a sweep
- `Gate.decisions_flood`: late requests pass without limit
- `admitted_le_capacity_add_overlap`: how many requests are admitted at most
-/

namespace Gatehouse.Admission

open Http (Method)

namespace Gate

variable {α : Type} [TokenArith α] {route : Route} {client : String} {g : Gate α} {e : Event}

/-- How much time an event counts twice for a client on a route. `swept` is the reading of the sweep
    that took their bucket out last: if the event brings it into being again at an earlier reading,
    the time in between is counted again. -/
def late (route : Route) (client : String) (swept : Nat) (g : Gate α) (e : Event) : Nat :=
  if g.buckets.get? (route, client) = none ∧ (g.meet e).buckets.get? (route, client) ≠ none then
    swept - e.reading
  else 0

/-- The reading of the sweep that has taken the bucket of a client on a route out last when an event
    is over. -/
def lastSweep (route : Route) (client : String) (swept : Nat) (g : Gate α) (e : Event) : Nat :=
  if g.buckets.get? (route, client) ≠ none ∧ (g.meet e).buckets.get? (route, client) = none then
    e.reading
  else swept

/-- How much time is counted twice for a client on a route while events come. -/
def overlap (route : Route) (client : String) (swept : Nat) (g : Gate α) : List Event → Nat
  | [] => 0
  | e :: events =>
    late route client swept g e +
      overlap route client (lastSweep route client swept g e) (g.meet e) events

/-- An event that leaves no bucket counts no time twice. -/
theorem late_of_eq_none (h : (g.meet e).buckets.get? (route, client) = none) (swept : Nat) :
    late route client swept g e = 0 := if_neg fun hboth => hboth.2 h

/-- An event that leaves a bucket counts time twice if it brought it into being again. -/
theorem late_of_ne_none (h : (g.meet e).buckets.get? (route, client) ≠ none) (swept : Nat) :
    late route client swept g e =
      if g.buckets.get? (route, client) = none then swept - e.reading else 0 :=
  if_congr (and_iff_left h) rfl rfl

/-- An event that leaves the bucket is not the sweep that took it out. -/
theorem lastSweep_of_ne_none (h : (g.meet e).buckets.get? (route, client) ≠ none) (swept : Nat) :
    lastSweep route client swept g e = swept := if_neg fun hboth => h hboth.2

/-- An event that leaves the bucket as it is counts nothing twice and sweeps nothing. -/
theorem late_of_eq (h : (g.meet e).buckets.get? (route, client) = g.buckets.get? (route, client))
    (swept : Nat) : late route client swept g e = 0 := if_neg fun hboth => hboth.2 (h.trans hboth.1)

/-- An event that leaves the bucket as it was is not the sweep that took it out. -/
theorem lastSweep_of_eq
    (h : (g.meet e).buckets.get? (route, client) = g.buckets.get? (route, client)) (swept : Nat) :
    lastSweep route client swept g e = swept := if_neg fun hboth => hboth.1 (h.symm.trans hboth.2)

end Gate

/-! ## The balance of admitted requests -/

/-- How the requests that were admitted to a client on a route stand to the time that has passed, by
    the bucket that there is. All their readings lie between two readings; `n` of them were
    admitted, and `twice` is the time that was counted twice. -/
structure Books (q : Quota Rat) (start finish swept n twice : Nat) (cell : Option (Bucket Rat)) :
    Prop where
  bounded : (n : Rat) ≤ q.capacity + span (finish - start + twice) * q.perSecond
  /-- The bucket was full when it was taken out, so no tokens are lost with it. -/
  out : cell = none → (n : Rat) ≤ span (swept - start + twice) * q.perSecond
  kept : ∀ b ∈ cell, start ≤ b.updated ∧ b.updated ≤ finish ∧ b.Level q ∧
    n + b.tokens ≤ q.capacity + span (b.updated - start + twice) * q.perSecond

namespace Books

variable {q : Quota Rat} {start finish swept n twice : Nat} {cell : Option (Bucket Rat)}

/-- Before the first request nothing is admitted, and nothing counted twice. -/
theorem fresh (hpos : 0 < q.perMinute) (start finish : Nat) : Books q start finish 0 0 0 none where
  bounded := by
    have hflow := mul_nonneg (span_nonneg (finish - start + 0)) (Quota.perSecond_pos hpos).le
    have hcap := q.one_le_capacity
    rw [Nat.cast_zero]
    linarith
  out _ := by
    rw [Nat.cast_zero]
    exact mul_nonneg (span_nonneg _) (Quota.perSecond_pos hpos).le
  kept := nofun

/-- What flows in does not grow less with time. -/
theorem flow_mono (hpos : 0 < q.perMinute) {m m' : Nat} (h : m ≤ m') :
    span m * q.perSecond ≤ span m' * q.perSecond :=
  mul_le_mul_of_nonneg_right (span_mono h) (Quota.perSecond_pos hpos).le

/-- What a refilled bucket holds is balanced by the time up to the request, where the time that is
    counted twice takes in what a late request counts again. -/
theorem refilled (hpos : 0 < q.perMinute) (h : Books q start finish swept n twice cell) {now : Nat}
    (hstart : start ≤ now) (hfinish : now ≤ finish) {late : Nat}
    (hlate : late = if cell = none then swept - now else 0) :
    let b := (cell.getD (.full q now)).refill q now
    start ≤ b.updated ∧ b.updated ≤ finish ∧
      n + b.tokens ≤ q.capacity + span (b.updated - start + (twice + late)) * q.perSecond := by
  intro b
  cases cell with
  | none =>
    -- A full bucket comes into being; what it holds beyond the balance was lost to nobody.
    have hb : b = .full q now := by
      simp only [b, Option.getD_none, Bucket.refill_full]
    have htokens : b.tokens = q.capacity := by rw [hb]; rfl
    have hupdated : b.updated = now := by rw [hb]; rfl
    rw [if_pos rfl] at hlate
    have hout := h.out rfl
    have hflow := flow_mono hpos
      (show swept - start + twice ≤ now - start + (twice + late) by omega)
    rw [htokens, hupdated]
    exact ⟨hstart, hfinish, by linarith⟩
  | some b₀ =>
    -- What flows in is balanced by the time since the last request.
    obtain ⟨hstart₀, hfinish₀, -, hbalance⟩ := h.kept b₀ rfl
    have hb : b = b₀.refill q now := rfl
    have hupdated : b.updated = max b₀.updated now := by rw [hb, Bucket.updated_refill]
    have htokens : b.tokens ≤ b₀.tokens + span (now - b₀.updated) * q.perSecond := by
      rw [hb, Bucket.tokens_refill]
      exact min_le_left _ _
    have hsplit : max b₀.updated now - start + (twice + late) =
        (b₀.updated - start + twice) + (now - b₀.updated) := by
      rw [hlate, if_neg (by simp)]
      omega
    rw [hupdated, hsplit, span_add, add_mul]
    exact ⟨by omega, by omega, by linarith⟩

/-- A request takes the token that it is admitted for out of the balance. -/
theorem request (hpos : 0 < q.perMinute) (h : Books q start finish swept n twice cell) {now : Nat}
    (hstart : start ≤ now) (hfinish : now ≤ finish) (route : Route) {late : Nat}
    (hlate : late = if cell = none then swept - now else 0) :
    let r := ((cell.getD (.full q now)).refill q now).spend route q
    Books q start finish swept (n + if r.1 = .admitted then 1 else 0) (twice + late)
      (some r.2) := by
  intro r
  obtain ⟨hstart', hfinish', hbalance⟩ := h.refilled hpos hstart hfinish hlate
  obtain ⟨h0, -⟩ := Bucket.tokens_refill_bounds hpos (fun b hb => (h.kept b hb).2.2.1) now
  have hlevel : r.2.Level q :=
    Bucket.level_refill_spend hpos route cell now fun b hb => (h.kept b hb).2.2.1
  have hupdated : r.2.updated = ((cell.getD (.full q now)).refill q now).updated :=
    Gate.updated_spend _ route q
  have htokens := ((cell.getD (.full q now)).refill q now).tokens_spend route q
  -- What is admitted is what the bucket loses.
  have hkept : ((n + if r.1 = .admitted then 1 else 0 : Nat) : Rat) + r.2.tokens ≤
      q.capacity + span (r.2.updated - start + (twice + late)) * q.perSecond := by
    rw [hupdated, htokens]
    push_cast
    linarith
  refine ⟨?_, nofun, ?_⟩
  · have hflow := flow_mono hpos (show r.2.updated - start + (twice + late) ≤
      finish - start + (twice + late) by omega)
    linarith [hlevel.1]
  · rintro b ⟨⟩
    exact ⟨by omega, by omega, hlevel, hkept⟩

/-- A sweep that takes a bucket out finds it full, so that nothing is lost with it. -/
theorem sweep {b : Bucket Rat}
    (h : Books q start finish swept n twice (some b)) {maxIdle now : Nat}
    (hidle : b.idle q maxIdle now = true) : Books q start finish now n twice none := by
  obtain ⟨hstart, -, ⟨-, hlevel⟩, hbalance⟩ := h.kept b rfl
  have hfull : q.capacity ≤ b.tokens + span (now - b.updated) * q.perSecond := by
    simp only [Bucket.idle, Bool.and_eq_true, atMost_iff, Bucket.tokensAt_eq] at hidle
    exact hidle.2
  -- It was not full after its last request, so the sweep has come later.
  have hlater : b.updated ≤ now := by
    by_contra hlt
    rw [Nat.sub_eq_zero_of_le (by omega), span_zero, zero_mul, add_zero] at hfull
    linarith
  have hsplit : now - start + twice = (b.updated - start + twice) + (now - b.updated) := by omega
  refine ⟨h.bounded, fun _ => ?_, fun b hb => by cases hb⟩
  rw [hsplit, span_add, add_mul]
  linarith

end Books

/-! ## Any events -/

/-- How many calls were admitted. -/
def Log.passed (log : Log) : Nat := log.countP fun c => c.2 = .admitted

/-- The first call counts if it was admitted. -/
theorem Log.passed_cons (now : Nat) (v : Verdict) (log : Log) :
    Log.passed ((now, v) :: log) = (if v = .admitted then 1 else 0) + Log.passed log := by
  rw [passed, List.countP_cons, passed, Nat.add_comm]
  simp only [decide_eq_true_eq]

/-- Calls behind others are counted behind them. -/
theorem Log.passed_append (log log' : Log) :
    Log.passed (log ++ log') = Log.passed log + Log.passed log' := List.countP_append

/-- The calls of a client are those in front and then those behind. -/
theorem callsOf_append (t : Table Rat) (route : Route) (client : String)
    (ds ds' : List (Event × Verdict)) :
    callsOf t route client (ds ++ ds') =
      callsOf t route client ds ++ callsOf t route client ds' := by
  simp only [callsOf, List.filter_append, List.map_append]

/-- Equal requests that were all admitted are all counted. -/
theorem Log.passed_callsOf_replicate {t : Table Rat} {route : Route} {client : String} {e : Event}
    (h : e.concerns t route client = true) (n : Nat) :
    Log.passed (callsOf t route client (List.replicate n (e, .admitted))) = n := by
  induction n with
  | zero => rfl
  | succ n ih =>
    rw [List.replicate_succ, callsOf_cons_of_concerns h, passed_cons, ih, if_pos rfl, Nat.add_comm]

namespace Gate

variable {t : Table Rat} {route : Route} {q : Quota Rat} {client : String} {start finish : Nat}

/-- One event moves the books by the request that it admits and by the time that it counts twice. -/
private theorem books_meet (hq : t.lookup route.method route.pathPrefix = some (route, q))
    (hpos : 0 < q.perMinute) {g : Gate Rat} (hg : g.table = t) {e : Event}
    (hreading : e.concerns t route client = true → start ≤ e.reading ∧ e.reading ≤ finish)
    {swept n twice : Nat}
    (h : Books q start finish swept n twice (g.buckets.get? (route, client))) :
    Books q start finish (lastSweep route client swept g e)
      (n + Log.passed (callsOf t route client (g.decisions [e])))
      (twice + late route client swept g e) ((g.meet e).buckets.get? (route, client)) := by
  cases e with
  | sweep maxIdle now =>
    have hpassed : Log.passed (callsOf t route client (g.decisions [.sweep maxIdle now])) = 0 := rfl
    have hmeet : (g.meet (.sweep maxIdle now)).buckets.get? (route, client) =
        (g.buckets.get? (route, client)).filter fun b => !stale t maxIdle now route b := by
      rw [meet, get?_sweep, hg]
    rw [hpassed, Nat.add_zero]
    -- Either the bucket stays as it is, or it is taken out because it is idle.
    cases hcell : (g.meet (.sweep maxIdle now)).buckets.get? (route, client) with
    | some b =>
      have hsame : g.buckets.get? (route, client) = some b :=
        (Option.filter_eq_some_iff.1 (hmeet.symm.trans hcell)).1
      have hstays := hcell.trans hsame.symm
      rwa [late_of_eq hstays, lastSweep_of_eq hstays, Nat.add_zero, ← hsame]
    | none =>
      rw [late_of_eq_none hcell, Nat.add_zero]
      cases hold : g.buckets.get? (route, client) with
      | none => rwa [lastSweep_of_eq (hcell.trans hold.symm), ← hold]
      | some b =>
        have htaken : lastSweep route client swept g (.sweep maxIdle now) = now :=
          if_pos ⟨by rw [hold]; exact Option.some_ne_none b, hcell⟩
        have hstale : stale t maxIdle now route b = true := by
          rw [hcell, hold] at hmeet
          simpa using hmeet.symm
        have hidle : b.idle q maxIdle now = true := by rwa [stale, hq] at hstale
        rw [htaken]
        exact (hold ▸ h).sweep hidle
  | request c method path now =>
    by_cases hmine : (Event.request c method path now).concerns t route client = true
    · obtain ⟨hstart, hfinish⟩ := hreading hmine
      obtain ⟨rfl, q', hlook⟩ := Event.concerns_request_iff.1 hmine
      obtain rfl := Table.quota_unique hq hlook
      have hcheck := check_eq (g := g) (hg.symm ▸ hlook) c now
      have hmeet : (g.meet (.request c method path now)).buckets.get? (route, c) =
          some ((g.bucketAt route q c now).spend route q).2 := by
        rw [meet, hcheck, Dict.get?_insert_self]
      have hpassed : Log.passed (callsOf t route c (g.decisions [.request c method path now])) =
          if ((g.bucketAt route q c now).spend route q).1 = .admitted then 1 else 0 := by
        rw [decisions_request, callsOf_cons_of_concerns hmine, Log.passed_cons, hcheck]
        rfl
      have hthere : (g.meet (.request c method path now)).buckets.get? (route, c) ≠ none := by
        rw [hmeet]
        exact Option.some_ne_none _
      rw [lastSweep_of_ne_none hthere, hpassed, hmeet]
      exact h.request hpos hstart hfinish route (late_of_ne_none hthere swept)
    · have hstays : (g.meet (.request c method path now)).buckets.get? (route, client) =
          g.buckets.get? (route, client) := by
        rw [meet, get?_check_of_not_concerns (hg ▸ hmine)]
      have hpassed : Log.passed
          (callsOf t route client (g.decisions [.request c method path now])) = 0 := by
        rw [decisions_request, callsOf_cons_of_not_concerns hmine]
        rfl
      rwa [hpassed, late_of_eq hstays, lastSweep_of_eq hstays, hstays]

/-- The balance is kept by all events, whatever else comes to the gate. -/
private theorem passed_le_of_books (hq : t.lookup route.method route.pathPrefix = some (route, q))
    (hpos : 0 < q.perMinute) (events : List Event)
    (hreadings : ∀ e ∈ events, e.concerns t route client = true →
      start ≤ e.reading ∧ e.reading ≤ finish)
    {g : Gate Rat} (hg : g.table = t) {swept n twice : Nat}
    (h : Books q start finish swept n twice (g.buckets.get? (route, client))) :
    ((n + Log.passed (callsOf t route client (g.decisions events)) : Nat) : Rat) ≤
      q.capacity + span (finish - start + (twice + overlap route client swept g events)) *
        q.perSecond := by
  induction events generalizing g swept n twice with
  | nil => exact h.bounded
  | cons e events ih =>
    have hmeet := books_meet hq hpos hg (hreadings e List.mem_cons_self) h
    have hrest := ih (fun e' he' => hreadings e' (List.mem_cons_of_mem e he'))
      ((g.table_meet e).trans hg) hmeet
    have hsplit : g.decisions (e :: events) = g.decisions [e] ++ (g.meet e).decisions events :=
      decisions_append g [e] events
    rwa [hsplit, callsOf_append, Log.passed_append, overlap, ← Nat.add_assoc, ← Nat.add_assoc twice]

/-! ### No late requests -/

/-- A bucket only comes into being with a request that concerns it. -/
theorem concerns_of_get?_meet {α : Type} [TokenArith α] {g : Gate α} {e : Event}
    (h : g.buckets.get? (route, client) = none)
    (h' : (g.meet e).buckets.get? (route, client) ≠ none) :
    e.concerns g.table route client = true := by
  obtain ⟨b, hb⟩ := Option.ne_none_iff_exists'.1 h'
  have hafter : (g.after [e]).buckets.get? (route, client) = some b := hb
  obtain ⟨e', he', hconcerns⟩ := exists_concerns_of_get?_after rfl hafter h
  rwa [List.mem_singleton.1 he'] at hconcerns

/-- Only a sweep takes a bucket out. -/
theorem isRequest_eq_false_of_get?_meet {α : Type} [TokenArith α] {g : Gate α} {e : Event}
    (h : g.buckets.get? (route, client) ≠ none)
    (h' : (g.meet e).buckets.get? (route, client) = none) : e.isRequest = false := by
  cases e with
  | sweep maxIdle now => rfl
  | request c method path now =>
    rw [meet, get?_check] at h'
    split at h'
    · exact absurd h' h
    · split at h'
      · cases h'
      · exact absurd h' h

/-- No time is counted twice if no request of the client comes with an earlier reading than a sweep
    in front of it. -/
theorem overlap_eq_zero {α : Type} [TokenArith α] {t : Table α} {g : Gate α} (hg : g.table = t)
    {events : List Event} {swept : Nat}
    (hswept : ∀ e ∈ events, e.concerns t route client = true → swept ≤ e.reading)
    (hevents : events.Pairwise fun e e' =>
      e.isRequest = false → e'.concerns t route client = true → e.reading ≤ e'.reading) :
    overlap route client swept g events = 0 := by
  -- Induction on the events: the reading of the last sweep is not above those of the requests that
  -- are still to come.
  induction events generalizing g swept with
  | nil => rfl
  | cons e events ih =>
    obtain ⟨hfirst, hevents⟩ := List.pairwise_cons.1 hevents
    have hlate : late route client swept g e = 0 := by
      rw [late]
      split
      · next hboth =>
        have hmine := concerns_of_get?_meet hboth.1 hboth.2
        exact Nat.sub_eq_zero_of_le (hswept e List.mem_cons_self (hg ▸ hmine))
      · rfl
    have hswept' : ∀ e' ∈ events, e'.concerns t route client = true →
        lastSweep route client swept g e ≤ e'.reading := by
      intro e' he' hmine
      rw [lastSweep]
      split
      · next hboth =>
        exact hfirst e' he' (isRequest_eq_false_of_get?_meet hboth.1 hboth.2) hmine
      · exact hswept e' (List.mem_cons_of_mem e he') hmine
    rw [overlap, hlate, ih ((g.table_meet e).trans hg) hswept' hevents]

/-! ### Late requests without limit -/

/-- Bursts of requests that all read the clock at one instant, each followed by a sweep that read it
    later. -/
def flood (client : String) (method : Method) (path : String) (burst now later rounds : Nat) :
    List Event :=
  (List.replicate rounds
    (List.replicate burst (.request client method path now) ++ [.sweep 0 later])).flatten

/-- If a bucket is full again at the later instant, every request of a flood is admitted. -/
theorem decisions_flood {method : Method} {path : String} {now later : Nat} {g : Gate Rat}
    (hlook : g.table.lookup method path = some (route, q))
    (hfull : q.capacity ≤ span (later - now) * q.perSecond)
    (hnone : g.buckets.get? (route, client) = none) (rounds : Nat) :
    g.decisions (flood client method path (q.burst + 1) now later rounds) =
      List.replicate (rounds * (q.burst + 1)) (.request client method path now, .admitted) := by
  -- By induction on the rounds: each of them leaves the gate without the bucket.
  induction rounds generalizing g with
  | zero => rw [Nat.zero_mul]; rfl
  | succ rounds ih =>
    let burst := List.replicate (q.burst + 1) (Event.request client method path now)
    obtain ⟨hdecisions, -, hdrained⟩ := after_drain hlook hnone now
    -- Nothing is left in the bucket, and the sweep finds it full again.
    have hself : (g.after burst).table.lookup route.method route.pathPrefix = some (route, q) := by
      rw [table_after]
      exact Table.lookup_self hlook
    have hstale : stale (g.after burst).table 0 later route ⟨0, now⟩ = true := by
      rw [stale, hself]
      simp only [Bucket.idle, Bucket.tokensAt_eq, zero_add, Nat.zero_le, decide_true,
        Bool.true_and, atMost_iff]
      exact hfull
    have hnone' : ((g.after burst).sweep 0 later).2.buckets.get? (route, client) = none := by
      rw [get?_sweep, hdrained, Option.filter_some, hstale]
      rfl
    have hrest : g.decisions (flood client method path (q.burst + 1) now later (rounds + 1)) =
        g.decisions burst ++ ((g.after burst).sweep 0 later).2.decisions
          (flood client method path (q.burst + 1) now later rounds) := by
      rw [flood, List.replicate_succ, List.flatten_cons, List.append_assoc, decisions_append]
      rfl
    rw [hrest, hdecisions, List.map_replicate, ih (by rwa [table_sweep, table_after]) hnone',
      List.replicate_append_replicate, Nat.succ_mul, Nat.add_comm]

end Gate

/-- Whatever the order in which requests and sweeps reach the gate, a client is admitted on a route
    at most for the capacity of its bucket, for what flows in between the earliest and the latest of
    its readings, and for what flows in while time is counted twice. No time is counted twice unless
    a request of the client comes with an earlier reading than a sweep in front of it. But what late
    requests can gain so has no limit: two instants between which the bucket fills are enough for
    any number of admitted requests. -/
theorem admitted_le_capacity_add_overlap {t : Table Rat} {route : Route} {q : Quota Rat}
    (hq : t.lookup route.method route.pathPrefix = some (route, q)) (hpos : 0 < q.perMinute)
    (client : String) :
    (∀ events start finish,
      (∀ e ∈ events, e.concerns t route client = true → start ≤ e.reading ∧ e.reading ≤ finish) →
      (Log.passed (callsOf t route client ((Gate.ofTable t).decisions events)) : Rat) ≤
        (q.burst + 1) + q.perMinute / 60 *
          (span (finish - start) + span (Gate.overlap route client 0 (Gate.ofTable t) events))) ∧
    (∀ events : List Event,
      (events.Pairwise fun e e' =>
        e.isRequest = false → e'.concerns t route client = true → e.reading ≤ e'.reading) →
      Gate.overlap route client 0 (Gate.ofTable t) events = 0) ∧
    ∀ method path, t.lookup method path = some (route, q) → ∀ now later,
      (q.burst + 1 : Rat) ≤ q.perMinute / 60 * span (later - now) → ∀ rounds,
      let events := Gate.flood client method path (q.burst + 1) now later rounds
      (∀ e ∈ events, e.reading = now ∨ e.reading = later) ∧
        Log.passed (callsOf t route client ((Gate.ofTable t).decisions events)) =
          rounds * (q.burst + 1) := by
  refine ⟨?_, ?_, ?_⟩
  · intro events start finish hreadings
    have hfresh : Books q start finish 0 0 0
        ((Gate.ofTable t).buckets.get? (route, client)) := Books.fresh hpos start finish
    have hbound := Gate.passed_le_of_books hq hpos events hreadings rfl hfresh
    rw [Nat.zero_add, Nat.zero_add, span_add, Quota.capacity_eq, Quota.perSecond_eq] at hbound
    rwa [mul_comm (q.perMinute / 60)]
  · intro events hevents
    exact Gate.overlap_eq_zero rfl (fun _ _ _ => Nat.zero_le _) hevents
  · intro method path hlook now later hfull rounds events
    refine ⟨fun e he => ?_, ?_⟩
    · obtain ⟨round, hround, he⟩ := List.mem_flatten.1 he
      -- Each round is a burst at the first time and one sweep at the second.
      rw [List.eq_of_mem_replicate hround, List.mem_append] at he
      rcases he with he | he
      · exact .inl (List.eq_of_mem_replicate he ▸ rfl)
      · exact .inr (List.mem_singleton.1 he ▸ rfl)
    -- Between two rounds the bucket fills up, is swept out and comes back full at the earlier
    -- time.
    · rw [← Quota.capacity_eq, ← Quota.perSecond_eq, mul_comm] at hfull
      have hmine : (Event.request client method path now).concerns t route client = true :=
        Event.concerns_request_iff.2 ⟨rfl, q, hlook⟩
      rw [Gate.decisions_flood hlook hfull rfl, Log.passed_callsOf_replicate hmine]

/-- Within two seconds a client signs in six times, three times as often as its quota of one a
    second with a burst of one would let it at most once the two seconds are over; without late
    requests it does so four times at most. -/
theorem admitted_le_capacity_add_overlap_sign_in :
    let route : Route := ⟨.post, "/auth/"⟩
    let client := "10.0.0.1"
    let events := Gate.flood client .post "/auth/login" 2 0 2000000000 3
    (0 : Rat) < 60 ∧
      (∀ e ∈ events, e.concerns signInTable route client = true →
        0 ≤ e.reading ∧ e.reading ≤ 2000000000) ∧
      Gate.overlap route client 0 (Gate.ofTable signInTable) events = 4000000000 ∧
      (Log.passed (callsOf signInTable route client
        ((Gate.ofTable signInTable).decisions events)) : Rat) ≤
        (1 + 1) + 60 / 60 * (span 2000000000 + span 4000000000) ∧
      Log.passed (callsOf signInTable route client
        ((Gate.ofTable signInTable).decisions events)) = 6 ∧
      ((1 + 1) + 60 / 60 * span 2000000000 : Rat) < 6 := by
  intro route client events
  have hpos : 0 < (⟨60, 1⟩ : Quota Rat).perMinute := by norm_num
  have hlook : signInTable.lookup route.method route.pathPrefix = some (route, ⟨60, 1⟩) :=
    lookup_signInTable
  obtain ⟨hbound, -, hflood⟩ := admitted_le_capacity_add_overlap hlook hpos client
  have hreadings : ∀ e ∈ events, e.concerns signInTable route client = true →
      0 ≤ e.reading ∧ e.reading ≤ 2000000000 := by decide
  have hoverlap : Gate.overlap route client 0 (Gate.ofTable signInTable) events = 4000000000 := by
    decide +kernel
  have hspan : (span 2000000000 : Rat) = 2 := by norm_num [span, nanosPerSecond]
  refine ⟨hpos, hreadings, hoverlap, ?_, ?_, by rw [hspan]; norm_num⟩
  · have hmost := hbound events 0 2000000000 hreadings
    rw [hoverlap] at hmost
    simpa only [Nat.cast_one, Nat.sub_zero] using hmost
  · exact (hflood .post "/auth/login" (by rfl) 0 2000000000 (by rw [hspan]; norm_num) 3).2

end Gatehouse.Admission
