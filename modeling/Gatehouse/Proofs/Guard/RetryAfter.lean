import Gatehouse.Proofs.Admission.Refusal
import Gatehouse.Proofs.Admission.Waiting
import Gatehouse.Proofs.Guard.Order
import Mathlib.Order.Bounds.Basic

/-!
# Coming back after a refusal

A client that is refused is told a span of time. As long as it is not admitted, nothing that comes
in between matters, and at a later reading it finds a token if and only if its wait is over by then.
The wait is told to the nearest nanosecond, so it is over one nanosecond after the time told, and
not yet one nanosecond before it. The reply rounds the time up to whole seconds.

## Key results

- `exactSpan?_bounds`: a wait that is told is half a nanosecond off at most
- `Bucket.one_le_tokens_refill_iff`: a bucket holds a token once its wait is over
- `Bucket.spend_refill_of_rejected`: what a client is told at a later reading
- `Gate.check_after_rejected`: the same, whatever came in between
- `retryAfter_le_iff`: the whole seconds in the reply
- `retry_after_is_tight`: when a client that was refused is admitted
-/

namespace Gatehouse

namespace Admission

open Http (Method)

/-- A wait that is told is half a nanosecond off at most. -/
theorem exactSpan?_bounds {x : Rat} {n : Nat} (h : exactSpan? x = some n) :
    x ≤ span n + span 1 / 2 ∧ span n ≤ x + span 1 / 2 := by
  unfold exactSpan? at h
  split at h
  · cases h
  · next hrange =>
    simp only [Bool.or_eq_true, decide_eq_true_eq, not_or, not_lt] at hrange
    obtain ⟨hover, hunder⟩ :=
      Decimal.roundHalfEven_bounds (x.num.toNat * nanosPerSecond) x.den_pos
    rw [Option.some.inj h] at hover hunder
    have hden : (0 : Rat) < x.den := by exact_mod_cast x.den_pos
    have hnum : (x.num.toNat : Rat) = x * x.den := by
      rw [Rat.mul_den_eq_num]
      exact_mod_cast Int.toNat_of_nonneg (Rat.num_nonneg.2 hrange.1)
    -- Rounding was told in whole numbers over the denominator; here it is divided out.
    have hover : (2 * (x.den * n) : Rat) ≤ 2 * (x * x.den * 1000000000) + x.den := by
      rw [← hnum]
      exact_mod_cast hover
    have hunder : (2 * (x * x.den * 1000000000) : Rat) ≤ 2 * (x.den * n) + x.den := by
      rw [← hnum]
      exact_mod_cast hunder
    simp only [span, Nat.cast_one]
    constructor
    · refine le_of_mul_le_mul_right ?_ hden
      linarith
    · refine le_of_mul_le_mul_right ?_ hden
      linarith

namespace Bucket

variable {b : Bucket Rat} {q : Quota Rat} {route : Route} {later wait : Nat}

/-- A bucket holds a token once its wait is over. -/
theorem one_le_tokens_refill_iff (hpos : 0 < q.perMinute) (b : Bucket Rat) (later : Nat) :
    1 ≤ (b.refill q later).tokens ↔ b.wait q ≤ span (later - b.updated) := by
  have hone : (TokenArith.ofNat 1 : Rat) = 1 := by simp only [TokenArith.ofNat, Nat.cast_one]
  rw [tokens_refill, le_min_iff, and_iff_left q.one_le_capacity, Bucket.wait, hone,
    div_le_iff₀ (Quota.perSecond_pos hpos), sub_le_iff_le_add']

/-- A client is rejected if the bucket holds less than a token and the wait can be told. -/
theorem spend_eq_rejected_iff (b : Bucket Rat) (route : Route) (q : Quota Rat) (wait : Nat) :
    (b.spend route q).1 = .rejected route wait ↔
      b.tokens < 1 ∧ exactSpan? (b.wait q) = some wait := by
  by_cases h : 1 ≤ b.tokens
  · rw [spend_of_one_le h]
    exact iff_of_false nofun fun h' => absurd h (not_le.2 h'.1)
  · rw [and_iff_right (not_le.1 h)]
    simp only [spend, take?_eq, if_neg h, TokenArith.span?]
    cases exactSpan? (b.wait q) <;> simp

/-- As long as there is less than a token, none is lost and the wait becomes shorter. -/
theorem refill_of_lt_one (hpos : 0 < q.perMinute) (h : (b.refill q later).tokens < 1) :
    b.tokens ≤ (b.refill q later).tokens ∧ (b.refill q later).wait q ≤ b.wait q := by
  have hflow := mul_nonneg (span_nonneg (later - b.updated)) (Quota.perSecond_pos hpos).le
  have htokens : b.tokens ≤ (b.refill q later).tokens := by
    rw [tokens_refill] at h ⊢
    rcases min_lt_iff.1 h with hlt | hlt
    · rw [min_eq_left (hlt.le.trans q.one_le_capacity)]
      linarith
    · exact absurd q.one_le_capacity (not_le.2 hlt)
  rw [wait_eq, wait_eq]
  exact ⟨htokens, mul_le_mul_of_nonneg_right (by linarith) (by positivity)⟩

/-- A client that was rejected is admitted one nanosecond after the time that it was told, and
    rejected until one nanosecond before it. -/
theorem spend_refill_of_rejected (hpos : 0 < q.perMinute) (h0 : 0 ≤ b.tokens)
    (hrej : (b.spend route q).1 = .rejected route wait) (hle : b.updated ≤ later) :
    let v := ((b.refill q later).spend route q).1
    (b.updated + wait + 1 ≤ later → v = .admitted) ∧
      (later + 1 ≤ b.updated + wait → ∃ wait', v = .rejected route wait') := by
  intro v
  obtain ⟨htokens, hspan⟩ := (spend_eq_rejected_iff b route q wait).1 hrej
  obtain ⟨hover, hunder⟩ := exactSpan?_bounds hspan
  have hone : 0 < span 1 := by norm_num [span]
  constructor
  · intro hlate
    have hpassed := span_mono (show wait + 1 ≤ later - b.updated by omega)
    rw [span_add] at hpassed
    rw [spend_eq_admitted_iff, one_le_tokens_refill_iff hpos]
    linarith
  · intro hearly
    have hpassed := span_mono (show later - b.updated + 1 ≤ wait by omega)
    rw [span_add] at hpassed
    have hlt : (b.refill q later).tokens < 1 := by
      rw [← not_le, one_le_tokens_refill_iff hpos, not_le]
      linarith
    -- The wait was told before, and it has become shorter.
    obtain ⟨hmore, hshorter⟩ := refill_of_lt_one hpos hlt
    have htold : b.wait q < 2 ^ 64 := by
      rw [← not_le, ← exactSpan?_eq_none_iff (wait_bounds hpos h0 htokens).1.le, hspan]
      exact Option.some_ne_none wait
    exact (tells_spend hpos (h0.trans hmore) route).rejected.2 ⟨hlt, hshorter.trans_lt htold⟩

end Bucket

namespace Gate

variable {g : Gate Rat} {route : Route} {q : Quota Rat} {client : String}
  {method method' : Method} {path path' : String} {now back wait : Nat}

/-- A bucket that is asked for at the last reading is refilled up to it. -/
theorem updated_bucketAt (h : g.UpTo now) (route : Route) (q : Quota Rat) (client : String) :
    (g.bucketAt route q client now).updated = now := by
  rw [bucketAt, Bucket.updated_refill]
  cases hcell : g.buckets.get? (route, client) with
  | none => exact Nat.max_self now
  | some b => exact Nat.max_eq_right (h _ b hcell)

/-- Whatever comes in between, a client that was rejected and is not admitted meanwhile finds at a
    later reading the bucket that rejected it, refilled. -/
theorem bucketAt_after_rejected (hlook : g.table.lookup method path = some (route, q))
    (hpos : 0 < q.perMinute) (hup : g.UpTo now)
    (hrej : (g.check client method path now).1 = .rejected route wait) {events : List Event}
    (hmono : (now :: (events.map Event.reading ++ [back])).Pairwise (· ≤ ·))
    (href : ∀ d ∈ (g.check client method path now).2.decisions events,
      d.1.concerns g.table route client = true → d.2 ≠ .admitted) :
    ((g.check client method path now).2.after events).bucketAt route q client back =
      (g.bucketAt route q client now).refill q back := by
  have hle : now ≤ back := (List.pairwise_cons.1 hmono).1 _ (by simp)
  have hrefused : (g.check client method path now).1 ≠ .admitted := by
    rw [hrej]
    exact nofun
  have hself : (g.check client method path now).2.table.lookup route.method route.pathPrefix =
      some (route, q) := by
    rw [table_check]
    exact Table.lookup_self hlook
  have hup' := hup.check (Nat.le_refl now) client method path
  rw [bucketAt_after_of_refused hself hpos hup' hmono (by rwa [table_check]),
    bucketAt_check_of_refused hlook hpos hrefused hle]
  exact (Bucket.refill_getD_refill hpos _ hle).symm

/-- What a client that was rejected is told when it comes back, whatever came in between. -/
theorem check_after_rejected (hlook : g.table.lookup method path = some (route, q))
    (hpos : 0 < q.perMinute) (hup : g.UpTo now) (h0 : 0 ≤ (g.bucketAt route q client now).tokens)
    (hrej : (g.check client method path now).1 = .rejected route wait)
    (hlook' : g.table.lookup method' path' = some (route, q)) {events : List Event}
    (hmono : (now :: (events.map Event.reading ++ [back])).Pairwise (· ≤ ·))
    (href : ∀ d ∈ (g.check client method path now).2.decisions events,
      d.1.concerns g.table route client = true → d.2 ≠ .admitted) :
    let v := (((g.check client method path now).2.after events).check client method' path' back).1
    (now + wait + 1 ≤ back → v = .admitted) ∧
      (back + 1 ≤ now + wait → ∃ wait', v = .rejected route wait') := by
  intro v
  have hle : now ≤ back := (List.pairwise_cons.1 hmono).1 _ (by simp)
  have hlook'' : ((g.check client method path now).2.after events).table.lookup method' path' =
      some (route, q) := by
    rwa [table_after, table_check]
  have hv : v = (((g.bucketAt route q client now).refill q back).spend route q).1 := by
    simp only [v, check_eq hlook'', bucketAt_after_rejected hlook hpos hup hrej hmono href]
  rw [check_eq hlook] at hrej
  have hnow := updated_bucketAt hup route q client
  have htold := Bucket.spend_refill_of_rejected hpos h0 hrej (hnow ▸ hle)
  rwa [hnow, ← hv] at htold

end Gate

end Admission

namespace Guard

open Admission
open Http (Handler Method Request)

/-- The seconds in the reply are as many as asked for if they are at least one and not fewer than
    the wait. -/
theorem retryAfter_le_iff (wait n : Nat) : retryAfter Rat wait ≤ n ↔ 1 ≤ n ∧ span wait ≤ n := by
  simp only [retryAfter, max_le_iff, TokenArith.ceil, seconds_eq_span, Int.toNat_le,
    Rat.ceil_le_iff, Int.cast_natCast]

/-- The reply tells the least number of whole seconds, at least one, after which the wait is
    over. -/
theorem isLeast_retryAfter (wait : Nat) :
    IsLeast {n : Nat | 1 ≤ n ∧ span wait ≤ n} (retryAfter Rat wait) :=
  ⟨(retryAfter_le_iff wait _).1 (Nat.le_refl _), fun _ hn => (retryAfter_le_iff wait _).2 hn⟩

/-- No more nanoseconds are told than the seconds in the reply have. -/
theorem wait_le_retryAfter (wait : Nat) : wait ≤ retryAfter Rat wait * nanosPerSecond := by
  have hspan := (isLeast_retryAfter wait).1.2
  rw [span, div_le_iff₀ (by norm_num)] at hspan
  exact_mod_cast hspan

/-- A client that is rejected is told a wait that is never negative and at most the time of one
    token, up to a nanosecond. As long as it is not admitted on that route meanwhile, whatever else
    comes, a request with a reading one nanosecond after the wait is admitted, and one with a
    reading of up to one nanosecond before its end is rejected. The reply has the status 429 and
    tells the least number of whole seconds, at least one, that are not fewer than the wait, so a
    client that comes back one nanosecond after them is admitted. -/
theorem retry_after_is_tight {τ : Type} {t : Table Rat} {method : Method} {path : String}
    {route : Route} {q : Quota Rat} (hlook : t.lookup method path = some (route, q))
    (hpos : 0 < q.perMinute) (client : String) {before : List Event} {now wait : Nat}
    (hmono : (before.map Event.reading ++ [now]).Pairwise (· ≤ ·))
    (hrej : (((Gate.ofTable t).after before).check client method path now).1 =
      .rejected route wait) :
    let g := (((Gate.ofTable t).after before).check client method path now).2
    (0 ≤ span wait ∧ span wait ≤ 60 / q.perMinute + span 1) ∧
    (∀ method' path' between back, t.lookup method' path' = some (route, q) →
      (now :: (between.map Event.reading ++ [back])).Pairwise (· ≤ ·) →
      (∀ d ∈ g.decisions between, d.1.concerns t route client = true → d.2 ≠ .admitted) →
      let v := ((g.after between).check client method' path' back).1
      (now + wait + 1 ≤ back → v = .admitted) ∧
        (back + 1 ≤ now + wait → ∃ wait', v = .rejected route wait') ∧
        (now + retryAfter Rat wait * nanosPerSecond + 1 ≤ back → v = .admitted)) ∧
    IsLeast {n : Nat | 1 ≤ n ∧ span wait ≤ n} (retryAfter Rat wait) ∧
    ∀ (s : Settings) (inner : Handler τ) (d : Desk Rat) (state : τ) (r : Request),
      ¬AnsweredInFront s r → s.admission.enabled = true →
      (asked d r).1 = .rejected route wait →
        ∃ reply, ((line s).wrap (.behind inner) r (d, state)).1 = some reply ∧
          reply.status = 429 ∧
          reply.headers.values "retry-after" =
            [(toString (retryAfter Rat wait)).toUTF8.toList] := by
  intro g
  have htable : ((Gate.ofTable t).after before).table = t := Gate.table_after _ before
  have hlook₀ : ((Gate.ofTable t).after before).table.lookup method path = some (route, q) := by
    rwa [htable]
  have hup : ((Gate.ofTable t).after before).UpTo now :=
    (Gate.upTo_ofTable 0 t).after (List.pairwise_cons.2 ⟨fun _ _ => Nat.zero_le _, hmono⟩)
  have h0 := (Gate.bucketAt_bounds (Table.lookup_self hlook) hpos client before now).1
  refine ⟨⟨span_nonneg wait, ?_⟩, ?_, isLeast_retryAfter wait, ?_⟩
  -- The wait is for what is missing to one token, rounded to the next nanosecond.
  · rw [Gate.check_eq hlook₀] at hrej
    obtain ⟨htokens, hspan⟩ := (Bucket.spend_eq_rejected_iff _ route q wait).1 hrej
    have hone := span_nonneg 1
    linarith [(exactSpan?_bounds hspan).2, (Bucket.wait_bounds hpos h0 htokens).2]
  · intro method' path' between back hlook' hmono' href v
    have htold := Gate.check_after_rejected hlook₀ hpos hup h0 hrej (by rwa [htable]) hmono'
      (by rwa [htable])
    refine ⟨htold.1, htold.2, fun hback => htold.1 ?_⟩
    -- Whole seconds are rounded up, so they are long enough.
    have := wait_le_retryAfter wait
    omega
  · intro s inner d state r hfront henabled hasked
    obtain ⟨reply, hreply, hstatus, hvalues⟩ :=
      (firstCome s inner d state r).limited hfront henabled route wait hasked
    exact ⟨reply, congrArg Prod.fst hreply, hstatus, hvalues⟩

/-- Seven sign-in attempts a minute, one at a time. -/
def slowTable : Table Rat := ⟨[(⟨.post, "/auth/"⟩, ⟨7, 0⟩)], by simp⟩

/-- A client that signs in twice at once is told to wait for about 8.57 seconds, and 9 in the reply.
    It asks in vain in between, while another client and a sweep come by. -/
theorem retry_after_is_tight_sign_in :
    let r : Request := ⟨.post, "/auth/login", [], none, 0⟩
    let client := clientOf r
    let route : Route := ⟨.post, "/auth/"⟩
    let signIn (now : Nat) : Event := .request client .post "/auth/login" now
    let first := (Gate.ofTable slowTable).after [signIn 0]
    let g := (first.check client .post "/auth/login" 0).2
    let between : List Event :=
      [signIn 1000000000, .request "10.0.0.2" .post "/auth/login" 1000000000,
        .sweep 0 2000000000]
    slowTable.lookup .post "/auth/login" = some (route, ⟨7, 0⟩) ∧ (0 : Rat) < 7 ∧
      (([signIn 0].map Event.reading) ++ [0]).Pairwise (· ≤ ·) ∧
      (first.check client .post "/auth/login" 0).1 = .rejected route 8571428571 ∧
      (0 :: (between.map Event.reading ++ [8571428572])).Pairwise (· ≤ ·) ∧
      (∀ d ∈ g.decisions between, d.1.concerns slowTable route client = true →
        d.2 ≠ .admitted) ∧
      ((g.after between).check client .post "/auth/login" 8571428572).1 = .admitted ∧
      (∃ wait, ((g.after between).check client .post "/auth/login" 8571428570).1 =
        .rejected route wait) ∧
      ((g.after between).check client .post "/auth/login" 9000000001).1 = .admitted ∧
      ¬AnsweredInFront {} r ∧
      (asked { gate := first } r).1 = .rejected route 8571428571 ∧
      ∃ reply, ((line {}).wrap (.behind fun _ s => (none, s)) r ({ gate := first }, ())).1 =
          some reply ∧
        reply.status = 429 ∧ reply.headers.values "retry-after" = ["9".toUTF8.toList] := by
  intro r client route signIn first g between
  have hlook : slowTable.lookup .post "/auth/login" = some (route, ⟨7, 0⟩) := by rfl
  have hmono : (([signIn 0].map Event.reading) ++ [0]).Pairwise (· ≤ ·) := by decide
  have hrej : (first.check client .post "/auth/login" 0).1 = .rejected route 8571428571 := by
    decide +kernel
  have href : ∀ d ∈ g.decisions between, d.1.concerns slowTable route client = true →
      d.2 ≠ .admitted := by decide +kernel
  -- Both boundary instants come behind all that happens in between.
  have hmono' : ∀ back, 2000000000 ≤ back →
      (0 :: (between.map Event.reading ++ [back])).Pairwise (· ≤ ·) := by
    intro back hback
    simp only [between, signIn, List.map_cons, List.map_nil, Event.reading, List.cons_append,
      List.nil_append, List.pairwise_cons, List.mem_cons, List.not_mem_nil, or_false]
    grind
  have hseconds : retryAfter Rat 8571428571 = 9 := by decide +kernel
  have hfront : ¬AnsweredInFront {} r := by
    rintro (h | ⟨h, -⟩)
    · exact absurd h (by decide)
    · cases h
  obtain ⟨-, hback, -, hreply⟩ :=
    retry_after_is_tight (τ := Unit) hlook (by norm_num) client hmono hrej
  rw [hseconds] at hback hreply
  exact ⟨hlook, by norm_num, hmono, hrej, hmono' _ (by omega), href,
    (hback _ _ between _ hlook (hmono' _ (by omega)) href).1 (by omega),
    (hback _ _ between _ hlook (hmono' _ (by omega)) href).2.1 (by omega),
    (hback _ _ between _ hlook (hmono' _ (by omega)) href).2.2 (by decide), hfront, hrej,
    hreply {} _ { gate := first } () r hfront rfl hrej⟩

end Guard

end Gatehouse
