import Gatehouse.Proofs.Admission.Sweeping

/-!
# How full a bucket is

Between requests a bucket is neither in debt nor full: the last request took a token of it or found
less than one there. Every token that a bucket loses is one admitted request, and at one instant a
bucket admits as many requests as it holds tokens.

## Key results

- `Gate.forall_get?_meet` / `Gate.forall_get?_after`: what holds of a bucket whenever it was spent
  holds of it after every event, and after all of them
- `Gate.level_after`: no bucket is ever in debt or full between requests
- `Bucket.tokens_spend`: a token is spent if and only if a request is admitted
- `Gate.after_burst` / `Gate.after_drain`: requests at one instant take the tokens one by one, until
  none is left
-/

namespace Gatehouse.Admission

open Http (Method)

namespace Gate

variable {α : Type} [TokenArith α] {P : Bucket α → Prop} {g : Gate α} {route : Route} {q : Quota α}
  {client : String}

/-- What holds of a bucket whenever it was spent is kept by every event. -/
theorem forall_get?_meet (hq : g.table.lookup route.method route.pathPrefix = some (route, q))
    (hspent : ∀ (cell : Option (Bucket α)) now, (∀ b ∈ cell, P b) →
      P (((cell.getD (.full q now)).refill q now).spend route q).2)
    (hg : ∀ b ∈ g.buckets.get? (route, client), P b) (e : Event) :
    ∀ b ∈ (g.meet e).buckets.get? (route, client), P b := by
  intro b hb
  cases e with
  | sweep maxIdle now =>
    rw [meet, get?_sweep, Option.mem_filter_iff] at hb
    exact hg b hb.1
  | request c method path now =>
    rw [meet] at hb
    by_cases hmine : (Event.request c method path now).concerns g.table route client = true
    · obtain ⟨rfl, q', hlook⟩ := Event.concerns_request_iff.1 hmine
      obtain rfl := Table.quota_unique hq hlook
      rw [check_eq hlook, Dict.get?_insert_self] at hb
      cases hb
      exact hspent _ now hg
    · rw [get?_check_of_not_concerns hmine] at hb
      exact hg b hb

/-- What holds of a bucket whenever it was spent holds of it after all events. -/
theorem forall_get?_after (hq : g.table.lookup route.method route.pathPrefix = some (route, q))
    (hspent : ∀ (cell : Option (Bucket α)) now, (∀ b ∈ cell, P b) →
      P (((cell.getD (.full q now)).refill q now).spend route q).2)
    (hg : ∀ b ∈ g.buckets.get? (route, client), P b) (events : List Event) :
    ∀ b ∈ (g.after events).buckets.get? (route, client), P b := by
  induction events generalizing g with
  | nil => exact hg
  | cons e events ih =>
    rw [after_cons]
    exact ih (by rwa [table_meet]) (forall_get?_meet hq hspent hg e)

end Gate

/-! ## Neither in debt nor full -/

namespace Bucket

variable {b : Bucket Rat} {q : Quota Rat}

/-- Whether a bucket is neither in debt nor full. -/
def Level (q : Quota Rat) (b : Bucket Rat) : Prop := 0 ≤ b.tokens ∧ b.tokens < q.capacity

/-- A request is admitted if and only if the bucket holds a token. -/
theorem spend_eq_admitted_iff (b : Bucket Rat) (route : Route) (q : Quota Rat) :
    (b.spend route q).1 = .admitted ↔ 1 ≤ b.tokens := by
  rw [fst_spend_eq_admitted_iff, take?_eq, Option.isSome_ite]

/-- A token is spent if and only if a request is admitted. -/
theorem tokens_spend (b : Bucket Rat) (route : Route) (q : Quota Rat) :
    (b.spend route q).2.tokens = b.tokens - if (b.spend route q).1 = .admitted then 1 else 0 := by
  rw [if_congr (b.spend_eq_admitted_iff route q) rfl rfl]
  by_cases h : 1 ≤ b.tokens
  · rw [spend_of_one_le h, if_pos h]
  · simp only [spend, take?_eq, if_neg h, sub_zero]
    cases TokenArith.span? (b.wait q) <;> rfl

/-- A bucket that was refilled is not in debt and not above the capacity. -/
theorem tokens_refill_bounds (hpos : 0 < q.perMinute) {cell : Option (Bucket Rat)}
    (h : ∀ b ∈ cell, Level q b) (now : Nat) :
    0 ≤ ((cell.getD (.full q now)).refill q now).tokens ∧
      ((cell.getD (.full q now)).refill q now).tokens ≤ q.capacity := by
  have hcap := q.one_le_capacity
  cases cell with
  | none =>
    rw [Option.getD_none, refill_full]
    have htokens : (full q now).tokens = q.capacity := rfl
    rw [htokens]
    exact ⟨by linarith, le_rfl⟩
  | some b =>
    have hflow := mul_nonneg (span_nonneg (now - b.updated)) (Quota.perSecond_pos hpos).le
    have hlevel := (h b rfl).1
    rw [Option.getD_some, tokens_refill]
    exact ⟨le_min (by linarith) (by linarith), min_le_right _ _⟩

/-- A bucket from which a request took a token, or found less than one there, is not full. -/
theorem level_spend (h0 : 0 ≤ b.tokens) (hcap : b.tokens ≤ q.capacity) (route : Route) :
    Level q (b.spend route q).2 := by
  have hone := q.one_le_capacity
  have hadmitted := b.spend_eq_admitted_iff route q
  rw [Level, tokens_spend]
  by_cases h : 1 ≤ b.tokens
  · rw [if_pos (hadmitted.2 h)]
    exact ⟨by linarith, by linarith⟩
  · rw [if_neg (mt hadmitted.1 h)]
    exact ⟨by linarith, by linarith⟩

/-- A bucket from which a request was spent is neither in debt nor full. -/
theorem level_refill_spend (hpos : 0 < q.perMinute) (route : Route)
    (cell : Option (Bucket Rat)) (now : Nat) (h : ∀ b ∈ cell, Level q b) :
    Level q (((cell.getD (.full q now)).refill q now).spend route q).2 :=
  have ⟨h0, hcap⟩ := tokens_refill_bounds hpos h now
  level_spend h0 hcap route

/-- Refilling at the moment of the last request changes nothing. -/
theorem refill_self {b : Bucket Rat} {q : Quota Rat} (h : b.tokens ≤ q.capacity) :
    b.refill q b.updated = b := by
  apply eq_of_tokens_of_updated
  · rw [tokens_refill, Nat.sub_self, span_zero, zero_mul, add_zero, min_eq_left h]
  · rw [updated_refill, max_self]

end Bucket

namespace Gate

variable {g : Gate Rat} {route : Route} {q : Quota Rat} {client : String}

/-- No bucket of a fresh gate is in debt or full between requests. -/
theorem level_after {t : Table Rat} (hq : t.lookup route.method route.pathPrefix = some (route, q))
    (hpos : 0 < q.perMinute) (client : String) (events : List Event) :
    ∀ b ∈ ((ofTable t).after events).buckets.get? (route, client), b.Level q :=
  forall_get?_after (g := ofTable t) hq (Bucket.level_refill_spend hpos route) nofun events

/-- The bucket that a request finds is not in debt and not above the capacity. -/
theorem bucketAt_bounds {t : Table Rat}
    (hq : t.lookup route.method route.pathPrefix = some (route, q)) (hpos : 0 < q.perMinute)
    (client : String) (events : List Event) (now : Nat) :
    0 ≤ (((ofTable t).after events).bucketAt route q client now).tokens ∧
      (((ofTable t).after events).bucketAt route q client now).tokens ≤ q.capacity :=
  Bucket.tokens_refill_bounds hpos (level_after hq hpos client events) now

/-! ## Bursts -/

/-- A client without a bucket finds a full one. -/
theorem bucketAt_of_none (h : g.buckets.get? (route, client) = none) (now : Nat) :
    g.bucketAt route q client now = .full q now := by
  rw [bucketAt, h, Option.getD_none, Bucket.refill_full]

/-- Requests at one instant take the tokens of a bucket one by one. -/
theorem after_burst {method : Method} {path : String} {now : Nat}
    (hlook : g.table.lookup method path = some (route, q)) {x : Rat} (hcap : x ≤ q.capacity)
    (hb : g.bucketAt route q client now = ⟨x, now⟩) {n : Nat} (hn : (n : Rat) ≤ x) :
    let burst := List.replicate n (Event.request client method path now)
    g.decisions burst = burst.map (·, .admitted) ∧
      (g.after burst).bucketAt route q client now = ⟨x - n, now⟩ ∧
      (0 < n → (g.after burst).buckets.get? (route, client) = some ⟨x - n, now⟩) := by
  intro burst
  -- By induction on the requests: the first one leaves a bucket with one token less.
  induction n generalizing g x with
  | zero => exact ⟨rfl, by rw [Nat.cast_zero, sub_zero]; exact hb, nofun⟩
  | succ n ih =>
    rw [Nat.cast_succ] at hn
    have hone : 1 ≤ x := by linarith [(Nat.cast_nonneg n : (0 : Rat) ≤ n)]
    have hcheck := check_eq hlook client now
    rw [hb, Bucket.spend_of_one_le hone] at hcheck
    -- What is left is kept, and finds no time to refill.
    have hcell : (g.check client method path now).2.buckets.get? (route, client) =
        some ⟨x - 1, now⟩ := by
      rw [hcheck, Dict.get?_insert_self]
    have hb' : (g.check client method path now).2.bucketAt route q client now = ⟨x - 1, now⟩ := by
      rw [bucketAt, hcell, Option.getD_some]
      exact Bucket.refill_self (b := ⟨x - 1, now⟩) (by linarith)
    obtain ⟨hdecisions, hlast, hget⟩ := ih (by rwa [table_check]) (by linarith) hb' (by linarith)
    have hx : x - 1 - n = x - (n + 1 : Nat) := by
      push_cast
      ring
    rw [hx] at hlast hget
    refine ⟨?_, hlast, fun _ => ?_⟩
    · simp only [burst, List.replicate_succ, decisions_request, List.map_cons, hdecisions]
      rw [hcheck]
    · cases n with
      | zero =>
        rw [← hx, Nat.cast_zero, sub_zero]
        exact hcell
      | succ n => exact hget (Nat.succ_pos n)

/-- As many requests at one instant as the capacity drain a bucket that is not there yet. -/
theorem after_drain {method : Method} {path : String}
    (hlook : g.table.lookup method path = some (route, q))
    (hnone : g.buckets.get? (route, client) = none) (now : Nat) :
    let burst := List.replicate (q.burst + 1) (Event.request client method path now)
    g.decisions burst = burst.map (·, .admitted) ∧
      (g.after burst).bucketAt route q client now = ⟨0, now⟩ ∧
      (g.after burst).buckets.get? (route, client) = some ⟨0, now⟩ := by
  have hcap : ((q.burst + 1 : Nat) : Rat) = q.capacity := by
    rw [Quota.capacity_eq]
    push_cast
    rfl
  have hdrained : (q.capacity : Rat) - (q.burst + 1 : Nat) = 0 := by rw [hcap, sub_self]
  obtain ⟨hdecisions, hlast, hget⟩ :=
    after_burst hlook le_rfl (bucketAt_of_none hnone now) hcap.le
  rw [hdrained] at hlast hget
  exact ⟨hdecisions, hlast, hget (Nat.succ_pos _)⟩

end Gate

end Gatehouse.Admission
