import Gatehouse.Admission.Exact
import Gatehouse.Proofs.Admission.Life
import Mathlib.Algebra.Order.Field.Rat
import Mathlib.Tactic.FieldSimp
import Mathlib.Tactic.Linarith
import Mathlib.Tactic.Positivity
import Mathlib.Tactic.Ring

/-!
# Buckets counted exactly

In exact arithmetic a bucket is a capped sum: what flows in between two readings is the rate times
the time between them, and refilling in two steps is refilling in one. A bucket that was refilled
holds at least one token, or it will in at most the time that one token takes to flow in.

## Key results

- `Bucket.tokens_refill`: the tokens of a refilled bucket as a minimum
- `Bucket.refill_refill`: refilling at an earlier reading first makes no difference
- `Bucket.refill_eq_of_full`: a bucket that is full at a reading is full at every later one
- `Bucket.spend_of_one_le` / `Bucket.spend_of_lt_one`: a token is spent if there is one, and
  otherwise the refusal tells a wait
-/

namespace Gatehouse.Admission

/-- A span of time in seconds. -/
def span (n : Nat) : Rat := (n : Rat) / 1000000000

/-- No span of time is negative. -/
theorem span_nonneg (n : Nat) : 0 ≤ span n := by
  unfold span
  positivity

/-- An instant has no length. -/
@[simp] theorem span_zero : span 0 = 0 := by simp [span]

/-- Spans behind one another add up. -/
theorem span_add (m n : Nat) : span (m + n) = span m + span n := by
  simp only [span, Nat.cast_add]
  ring

/-- More nanoseconds are a longer span. -/
theorem span_mono {m n : Nat} (h : m ≤ n) : span m ≤ span n := by
  obtain ⟨d, rfl⟩ := Nat.exists_eq_add_of_le h
  rw [span_add]
  linarith [span_nonneg d]

/-- The gate counts exact seconds as spans. -/
theorem seconds_eq_span (n : Nat) : (TokenArith.seconds n : Rat) = span n := by
  simp only [TokenArith.seconds, span, nanosPerSecond]
  norm_num

/-- The lesser of two exact numbers is their minimum. -/
theorem lesser_eq_min (x y : Rat) : TokenArith.lesser x y = min x y := by
  simp only [TokenArith.lesser, min_def]

/-- Exact numbers are compared as they are. -/
theorem atMost_iff (x y : Rat) : TokenArith.atMost x y = true ↔ x ≤ y := by
  simp only [TokenArith.atMost, decide_eq_true_eq]

/-- The capacity is the burst and one. -/
theorem Quota.capacity_eq (q : Quota Rat) : q.capacity = (q.burst : Rat) + 1 := by
  simp only [capacity, TokenArith.ofNat]
  norm_num

/-- A rate in seconds is a sixtieth of that in minutes. -/
theorem Quota.perSecond_eq (q : Quota Rat) : q.perSecond = q.perMinute / 60 := by
  simp only [perSecond, TokenArith.ofNat]
  norm_num

/-- A bucket holds one token at least. -/
theorem Quota.one_le_capacity (q : Quota Rat) : 1 ≤ q.capacity := by
  rw [capacity_eq]
  have : (0 : Rat) ≤ q.burst := by positivity
  linarith

/-- A positive rate is so in seconds. -/
theorem Quota.perSecond_pos {q : Quota Rat} (h : 0 < q.perMinute) : 0 < q.perSecond := by
  rw [perSecond_eq]
  positivity

namespace Bucket

/-- Tokens flow in at the rate of the quota from the last update on. -/
theorem tokensAt_eq (b : Bucket Rat) (q : Quota Rat) (now : Nat) :
    b.tokensAt q now = b.tokens + span (now - b.updated) * q.perSecond := by
  rw [tokensAt, seconds_eq_span]

/-- A refilled bucket holds what it held and what has flowed in, up to the capacity. -/
theorem tokens_refill (b : Bucket Rat) (q : Quota Rat) (now : Nat) :
    (b.refill q now).tokens = min (b.tokens + span (now - b.updated) * q.perSecond) q.capacity := by
  rw [refill, lesser_eq_min, tokensAt_eq]

/-- A clock that goes back leaves the bucket at its latest reading. -/
@[simp] theorem updated_refill (b : Bucket Rat) (q : Quota Rat) (now : Nat) :
    (b.refill q now).updated = max b.updated now := rfl

/-- Two buckets with the same tokens and the same moment are one. -/
theorem eq_of_tokens_of_updated {b b' : Bucket Rat} (ht : b.tokens = b'.tokens)
    (hu : b.updated = b'.updated) : b = b' := by
  cases b; cases b'
  simp only at ht hu
  subst ht hu
  rfl

/-- Refilling at an earlier reading first makes no difference. -/
theorem refill_refill (b : Bucket Rat) {q : Quota Rat} (hq : 0 < q.perMinute) {s t : Nat}
    (hst : s ≤ t) : (b.refill q s).refill q t = b.refill q t := by
  have hr := Quota.perSecond_pos hq
  apply eq_of_tokens_of_updated
  · rw [tokens_refill, tokens_refill, tokens_refill, updated_refill]
    have hsplit : t - b.updated = (s - b.updated) + (t - max b.updated s) := by omega
    rw [hsplit, span_add, min_add, min_assoc, add_mul, add_assoc]
    -- What flows in after the cap was reached is cut off again.
    have hcap : q.capacity ≤ q.capacity + span (t - max b.updated s) * q.perSecond := by
      have := mul_nonneg (span_nonneg (t - max b.updated s)) hr.le
      linarith
    rw [min_eq_right hcap]
  · simp only [updated_refill]
    omega

/-- A full bucket stays as it is, but for the moment. -/
theorem refill_full (q : Quota Rat) (now : Nat) : (full q now).refill q now = full q now := by
  apply eq_of_tokens_of_updated
  · rw [tokens_refill]
    simp only [full, Nat.sub_self, span_zero, zero_mul, add_zero, min_self]
  · simp [full]

/-- A bucket that would be full at a reading is full at every later one. -/
theorem refill_eq_of_full {b : Bucket Rat} {q : Quota Rat} (hq : 0 < q.perMinute) {s t : Nat}
    (hu : b.updated ≤ s) (hst : s ≤ t) (hfull : q.capacity ≤ b.tokensAt q s) :
    b.refill q t = full q t := by
  have hr := Quota.perSecond_pos hq
  apply eq_of_tokens_of_updated
  · rw [tokens_refill]
    rw [tokensAt_eq] at hfull
    -- No less has flowed in by the later reading.
    have hmono := mul_le_mul_of_nonneg_right
      (span_mono (show s - b.updated ≤ t - b.updated by omega)) hr.le
    exact min_eq_right (by linarith)
  · rw [updated_refill]
    simp only [full]
    omega

/-! ### Spending -/

/-- A request takes one token, if there is one. -/
theorem take?_eq (b : Bucket Rat) :
    b.take? = if 1 ≤ b.tokens then some { b with tokens := b.tokens - 1 } else none := by
  have hone : (TokenArith.ofNat 1 : Rat) = 1 := by simp only [TokenArith.ofNat, Nat.cast_one]
  simp only [take?, hone, atMost_iff]

/-- A refilled bucket that holds a token spends it. -/
theorem spend_of_one_le {b : Bucket Rat} (h : 1 ≤ b.tokens) (route : Route) (q : Quota Rat) :
    b.spend route q = (.admitted, { b with tokens := b.tokens - 1 }) := by
  simp only [spend, take?_eq, if_pos h]

/-- A wait below `2^64` seconds can be told. -/
theorem exactSpan?_isSome {x : Rat} (h0 : 0 ≤ x) (hlt : x < 2 ^ 64) : (exactSpan? x).isSome := by
  have hnum : 0 ≤ x.num := Rat.num_nonneg.2 h0
  have hden : (0 : Rat) < x.den := by exact_mod_cast x.den_pos
  have hlt' : (x.num : Rat) < 2 ^ 64 * x.den := by
    have := mul_lt_mul_of_pos_right hlt hden
    rwa [Rat.mul_den_eq_num] at this
  have hnat : x.num.toNat < 2 ^ 64 * x.den := by
    have : x.num < 2 ^ 64 * (x.den : Int) := by exact_mod_cast hlt'
    omega
  have hneg : ¬ x < 0 := not_lt.2 h0
  have hbig : ¬ Nat.pow 2 64 * x.den ≤ x.num.toNat := by
    simpa [Nat.pow_eq] using hnat
  simp only [exactSpan?, hneg, hbig, decide_false, Bool.or_self, Bool.false_eq_true, if_false,
    Option.isSome_some]

/-- The wait is the time that what is missing of a token takes to flow in. -/
theorem wait_eq (b : Bucket Rat) (q : Quota Rat) :
    b.wait q = (1 - b.tokens) * (60 / q.perMinute) := by
  have hone : (TokenArith.ofNat 1 : Rat) = 1 := by simp only [TokenArith.ofNat, Nat.cast_one]
  rw [wait, hone, Quota.perSecond_eq, div_div_eq_mul_div, mul_div_assoc]

/-- A refilled bucket that holds less than a token stays as it is, and the refusal tells a wait if
    the time that one token takes to flow in can be told. -/
theorem spend_of_lt_one {b : Bucket Rat} (h0 : 0 ≤ b.tokens) (h : b.tokens < 1) (route : Route)
    {q : Quota Rat} (hq : 0 < q.perMinute) (hwait : 60 / q.perMinute < 2 ^ 64) :
    ∃ wait, b.spend route q = (.rejected route wait, b) := by
  have hpos : 0 < 60 / q.perMinute := by positivity
  -- What is missing is less than a token, so the wait is less than the time of one.
  have hsome : (TokenArith.span? (b.wait q)).isSome := by
    apply exactSpan?_isSome <;> rw [wait_eq]
    · exact mul_nonneg (by linarith) hpos.le
    · have := mul_le_of_le_one_left hpos.le (show 1 - b.tokens ≤ 1 by linarith)
      linarith
  obtain ⟨wait, hwait⟩ := Option.isSome_iff_exists.1 hsome
  refine ⟨wait, ?_⟩
  simp only [spend, take?_eq, if_neg (not_le.2 h), hwait]

end Bucket

/-- Signing in may be tried once a second, and once more at once. -/
def signInTable : Table Rat := ⟨[(⟨.post, "/auth/"⟩, ⟨60, 1⟩)], by simp⟩

/-- The route of the table governs its own path. -/
theorem lookup_signInTable :
    signInTable.lookup .post "/auth/" = some (⟨.post, "/auth/"⟩, ⟨60, 1⟩) := by rfl

end Gatehouse.Admission
