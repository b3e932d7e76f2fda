import Gatehouse.Proofs.Admission.Levels
import Gatehouse.Proofs.Settings.Accepted

/-!
# Waits that cannot be told

A client that finds no token is told how long to wait, in a span of time that is below `2^64`
seconds. The wait is never negative, and never longer than one token takes to flow in. Accepted
settings ask only for a positive rate, though, and a token of a very low rate takes longer than any
span. Then the gate gives up, and it does so as soon as the first client has spent its burst.

## Key results

- `exactSpan?_eq_none_iff`: the waits that cannot be told
- `Bucket.Tells`: what a request is told, by the bucket that it finds
- `Gate.tells_check`: every governed request is told so, after whatever came before
- `Gate.exists_gives_up_iff`: the routes on which the gate gives up
- `gives_up_iff_slow`: accepted settings under which it does
-/

namespace Gatehouse.Admission

open Http (Method)

/-! ## Rates of accepted settings -/

/-- A finite float that is positive has a positive exact value. -/
theorem exactValue_pos {x : Float} (hpos : Decimal.isPositive x = true)
    (hfinite : (Decimal.Binary.ofFloat? x).isSome) : 0 < exactValue x := by
  obtain ⟨b, hb⟩ := Option.isSome_iff_exists.1 hfinite
  simp only [Decimal.isPositive, hb, Bool.and_eq_true, Bool.not_eq_eq_eq_not, Bool.not_true,
    bne_iff_ne, ne_eq] at hpos
  obtain ⟨hsign, hmantissa⟩ := hpos
  have hnum : 0 < b.num := Nat.mul_pos (Nat.pos_of_ne_zero hmantissa) (Nat.pow_pos (by omega))
  have hden : 0 < b.den := Nat.pow_pos (by omega)
  have hvalue : exactValue x = (b.num : Rat) / b.den := by
    simp only [exactValue, hb, hsign, Bool.false_eq_true, if_false, one_mul]
  rw [hvalue]
  exact div_pos (Nat.cast_pos.2 hnum) (Nat.cast_pos.2 hden)

namespace Table

variable {quotas : List Settings.Quota} {e : Route × Quota Rat}

/-- An entry of the table of configured quotas comes from one of them. -/
theorem mem_ofSettings_iff (h : quotas ≠ []) :
    e ∈ (ofSettings quotas : Table Rat).entries ↔ ∃ q ∈ quotas, entry? q = some e := by
  rw [ofSettings, if_neg (by rwa [List.isEmpty_iff]), ofList, List.mem_mergeSort,
    List.mem_filterMap]

/-- What holds of the rate of one a minute and of the rates of all quotas holds of all rates of the
    table. -/
theorem forall_perMinute_ofSettings {P : Rat → Prop} (hone : P 1)
    (h : ∀ q ∈ quotas, P (exactValue q.perMinute)) :
    ∀ e ∈ (ofSettings quotas : Table Rat).entries, P e.2.perMinute := by
  intro e he
  by_cases hempty : quotas = []
  · subst hempty
    have hbuiltIn : (ofSettings [] : Table Rat) = builtIn := rfl
    have hperMin : (Quota.perMin 1 : Quota Rat).perMinute = 1 := by
      simp only [Quota.perMin, TokenArith.ofNat, Nat.cast_one]
    rw [hbuiltIn, builtIn, ofList, List.mem_mergeSort] at he
    simp only [List.mem_cons, List.not_mem_nil, or_false] at he
    rcases he with rfl | rfl | rfl <;> rwa [hperMin]
  · obtain ⟨q, hq, hentry⟩ := (mem_ofSettings_iff hempty).1 he
    obtain ⟨m, -, rfl⟩ := Option.map_eq_some_iff.1 hentry
    exact h q hq

end Table

/-! ## What a request is told -/

/-- A wait cannot be told if and only if it is not below `2^64` seconds. -/
theorem exactSpan?_eq_none_iff {x : Rat} (h0 : 0 ≤ x) : exactSpan? x = none ↔ 2 ^ 64 ≤ x := by
  constructor
  · intro hnone
    by_contra hlt
    have hsome := Bucket.exactSpan?_isSome h0 (not_le.1 hlt)
    rw [hnone] at hsome
    exact nomatch hsome
  · intro hle
    have hden : (0 : Rat) < x.den := by exact_mod_cast x.den_pos
    have hle' : (2 ^ 64 * x.den : Rat) ≤ x.num := by
      have hmul := mul_le_mul_of_nonneg_right hle hden.le
      rwa [Rat.mul_den_eq_num] at hmul
    have hnat : 2 ^ 64 * x.den ≤ x.num.toNat := by
      have : (2 ^ 64 * x.den : Int) ≤ x.num := by exact_mod_cast hle'
      omega
    have hbig : Nat.pow 2 64 * x.den ≤ x.num.toNat := hnat
    simp only [exactSpan?, hbig, decide_true, Bool.or_true, if_true]

namespace Bucket

variable {b : Bucket Rat} {q : Quota Rat}

/-- A bucket with less than a token has at most the time of one token to wait. -/
theorem wait_bounds (hpos : 0 < q.perMinute) (h0 : 0 ≤ b.tokens) (h1 : b.tokens < 1) :
    0 < b.wait q ∧ b.wait q ≤ 60 / q.perMinute := by
  have htime : 0 < 60 / q.perMinute := by positivity
  rw [wait_eq]
  exact ⟨mul_pos (by linarith) htime, mul_le_of_le_one_left htime.le (by linarith)⟩

/-- What is said to a request that a route governs, by the refilled bucket that it finds. -/
structure Tells (b : Bucket Rat) (route : Route) (q : Quota Rat) (v : Verdict) : Prop where
  notInDebt : 0 ≤ b.tokens
  /-- Without a token there is a wait, at most that for one token. -/
  wait : b.tokens < 1 → 0 < b.wait q ∧ b.wait q ≤ 60 / q.perMinute
  admitted : v = .admitted ↔ 1 ≤ b.tokens
  rejected : (∃ wait, v = .rejected route wait) ↔ b.tokens < 1 ∧ b.wait q < 2 ^ 64
  /-- The gate gives up if the wait cannot be told. -/
  unrepresentable : v = .unrepresentable route ↔ b.tokens < 1 ∧ 2 ^ 64 ≤ b.wait q

/-- A refilled bucket that is not in debt tells a request whether it holds a token. -/
theorem tells_spend (hpos : 0 < q.perMinute) (h0 : 0 ≤ b.tokens) (route : Route) :
    b.Tells route q (b.spend route q).1 := by
  -- Three of the five facts hold of any verdict; what is left tells a refusal from a failure.
  suffices ((∃ wait, (b.spend route q).1 = .rejected route wait) ↔
        b.tokens < 1 ∧ b.wait q < 2 ^ 64) ∧
      ((b.spend route q).1 = .unrepresentable route ↔ b.tokens < 1 ∧ 2 ^ 64 ≤ b.wait q) from
    ⟨h0, fun h1 => wait_bounds hpos h0 h1, b.spend_eq_admitted_iff route q, this.1, this.2⟩
  by_cases h1 : 1 ≤ b.tokens
  · rw [spend_of_one_le h1]
    simp only [reduceCtorEq, exists_false, not_lt.2 h1, false_and, and_self]
  · have hlt := not_le.1 h1
    have hspan := exactSpan?_eq_none_iff (wait_bounds hpos h0 hlt).1.le
    -- Without a token, the verdict is a refusal if the wait is a span of time.
    cases hwait : exactSpan? (b.wait q) with
    | none =>
      have hspend : (b.spend route q).1 = .unrepresentable route := by
        simp only [spend, take?_eq, if_neg h1, TokenArith.span?, hwait]
      have hle := hspan.1 hwait
      simp only [hspend, reduceCtorEq, exists_false, hlt, not_lt.2 hle, hle, and_false, and_self]
    | some wait =>
      have hspend : (b.spend route q).1 = .rejected route wait := by
        simp only [spend, take?_eq, if_neg h1, TokenArith.span?, hwait]
      rw [hspend]
      have hle : ¬2 ^ 64 ≤ b.wait q := fun hle => by
        rw [hspan.2 hle] at hwait
        cases hwait
      exact ⟨iff_of_true ⟨wait, rfl⟩ ⟨hlt, not_le.1 hle⟩,
        iff_of_false (fun hv => by cases hv) fun h => hle h.2⟩

end Bucket

namespace Gate

variable {t : Table Rat} {route : Route} {q : Quota Rat}

/-- A governed request is told what the bucket answers that it finds. -/
theorem tells_check (hpos : 0 < q.perMinute) {method : Method} {path : String}
    (hlook : t.lookup method path = some (route, q)) (events : List Event) (client : String)
    (now : Nat) :
    let g := (ofTable t).after events
    (g.bucketAt route q client now).Tells route q (g.check client method path now).1 := by
  intro g
  have hlook' : g.table.lookup method path = some (route, q) := by rwa [table_after]
  obtain ⟨h0, -⟩ := bucketAt_bounds (Table.lookup_self hlook) hpos client events now
  rw [check_eq hlook']
  exact Bucket.tells_spend hpos h0 route

/-- The gate gives up on a route, sooner or later, if and only if one token takes longer to flow in
    than can be told. -/
theorem exists_gives_up_iff (hpos : ∀ e ∈ t.entries, 0 < e.2.perMinute) (route : Route) :
    (∃ events client method path now,
      (((ofTable t).after events).check client method path now).1 = .unrepresentable route) ↔
    ∃ q, t.lookup route.method route.pathPrefix = some (route, q) ∧
      2 ^ 64 ≤ 60 / q.perMinute := by
  constructor
  · rintro ⟨events, client, method, path, now, hv⟩
    obtain ⟨q, hlook, -⟩ := (check_eq_unrepresentable_iff _ client method path now route).1 hv
    rw [table_after] at hlook
    have hqpos := hpos _ (Table.mem_of_lookup hlook)
    -- The wait that could not be told is at most that for one token.
    have htells := tells_check hqpos hlook events client now
    obtain ⟨h1, hlong⟩ := htells.unrepresentable.1 hv
    exact ⟨q, Table.lookup_self hlook, hlong.trans (htells.wait h1).2⟩
  · rintro ⟨q, hself, hslow⟩
    -- The burst takes every token of a fresh bucket, and the next request comes at once.
    let burst := List.replicate (q.burst + 1) (Event.request "" route.method route.pathPrefix 0)
    have hfresh : (ofTable t).buckets.get? (route, "") = none := rfl
    obtain ⟨-, hdrained, -⟩ := after_drain hself hfresh 0
    have hqpos := hpos _ (Table.mem_of_lookup hself)
    have htells := tells_check hqpos hself burst "" 0
    refine ⟨burst, "", route.method, route.pathPrefix, 0, htells.unrepresentable.2 ?_⟩
    rw [hdrained, Bucket.wait_eq]
    exact ⟨one_pos, by rwa [sub_zero, one_mul]⟩

end Gate

/-- Under accepted settings with finite rates, a request that no quota governs passes, and a
    governed one is admitted if the bucket that it finds holds a token. If not, its wait is positive
    and at most the time that one token takes to flow in; it is rejected with that wait if the wait
    is below `2^64` seconds, and the gate gives up otherwise. So the gate gives up on a route in
    some history if and only if the quota that governs the route needs `2^64` seconds or more for a
    token, which acceptance does not rule out, and in no history if no configured quota does. -/
theorem gives_up_iff_slow {s : Settings} (hvalid : s.valid = true)
    (hfinite : ∀ q ∈ s.admission.quotas, (Decimal.Binary.ofFloat? q.perMinute).isSome) :
    let t : Table Rat := Table.ofSettings s.admission.quotas
    (∀ method path, t.lookup method path = none → ∀ events client now,
      (((Gate.ofTable t).after events).check client method path now).1 = .unlimited) ∧
    (∀ method path route q, t.lookup method path = some (route, q) → ∀ events client now,
      let g := (Gate.ofTable t).after events
      (g.bucketAt route q client now).Tells route q (g.check client method path now).1) ∧
    (∀ route,
      (∃ events client method path now,
        (((Gate.ofTable t).after events).check client method path now).1 =
          .unrepresentable route) ↔
      ∃ q, t.lookup route.method route.pathPrefix = some (route, q) ∧
        2 ^ 64 ≤ 60 / q.perMinute) ∧
    ((∀ q ∈ s.admission.quotas, 60 / exactValue q.perMinute < 2 ^ 64) →
      ∀ events client method path now route,
        (((Gate.ofTable t).after events).check client method path now).1 ≠
          .unrepresentable route) := by
  intro t
  obtain ⟨-, hsound, -⟩ := (Settings.valid_iff s).1 hvalid
  have hpos : ∀ e ∈ t.entries, 0 < e.2.perMinute :=
    Table.forall_perMinute_ofSettings one_pos fun q hq =>
      exactValue_pos (hsound q hq).perMinute (hfinite q hq)
  refine ⟨?_, ?_, Gate.exists_gives_up_iff hpos, ?_⟩
  · intro method path hlook events client now
    rw [Gate.check_of_lookup_none (by rwa [Gate.table_after])]
  · intro method path route q hlook events client now
    exact Gate.tells_check (hpos _ (Table.mem_of_lookup hlook)) hlook events client now
  · intro hfast events client method path now route hv
    obtain ⟨q, hself, hslow⟩ :=
      (Gate.exists_gives_up_iff hpos route).1 ⟨events, client, method, path, now, hv⟩
    have hrate : ∀ e ∈ t.entries, 60 / e.2.perMinute < 2 ^ 64 :=
      Table.forall_perMinute_ofSettings (P := fun x => 60 / x < 2 ^ 64) (by norm_num) hfast
    exact absurd hslow (not_le.2 (hrate _ (Table.mem_of_lookup hself)))

/-- Settings that let a client sign in once in two million million years are accepted, and the
    second attempt gets no answer. -/
theorem gives_up_iff_slow_sign_in :
    let s : Settings := { admission := { quotas := [⟨"POST", "/auth/", 1e-18, 0⟩] } }
    let t : Table Rat := Table.ofSettings s.admission.quotas
    let route : Route := ⟨.post, "/auth/"⟩
    s.valid = true ∧
      (∀ q ∈ s.admission.quotas, (Decimal.Binary.ofFloat? q.perMinute).isSome) ∧
      t.lookup .post "/auth/" = some (route, ⟨exactValue 1e-18, 0⟩) ∧
      2 ^ 64 ≤ 60 / exactValue 1e-18 ∧
      ∃ events client method path now,
        (((Gate.ofTable t).after events).check client method path now).1 =
          .unrepresentable route := by
  intro s t route
  have hvalid : s.valid = true := by decide +kernel
  have hfinite : ∀ q ∈ s.admission.quotas, (Decimal.Binary.ofFloat? q.perMinute).isSome := by
    decide +kernel
  have hentry : Table.entry? (α := Rat) ⟨"POST", "/auth/", 1e-18, 0⟩ =
      some (route, ⟨exactValue 1e-18, 0⟩) := by
    have hmethod : Settings.Quota.method? ⟨"POST", "/auth/", 1e-18, 0⟩ = some .post := by
      decide +kernel
    rw [Table.entry?, hmethod]
    rfl
  have hentries : t.entries = [(route, ⟨exactValue 1e-18, 0⟩)] := by
    simp only [t, s, Table.ofSettings, List.isEmpty_cons, Bool.false_eq_true, if_false,
      Table.ofList, List.filterMap_cons, List.filterMap_nil, hentry, List.mergeSort_singleton]
  have hlook : t.lookup .post "/auth/" = some (route, ⟨exactValue 1e-18, 0⟩) := by
    have hgoverns : route.governs .post "/auth/" = true := by decide
    simp only [Table.lookup, hentries, List.find?_cons, hgoverns]
  have hslow : 2 ^ 64 ≤ 60 / exactValue 1e-18 := by
    have hparts : Decimal.Binary.ofFloat? 1e-18 = some ⟨false, 5192296858534828, -112⟩ := by
      decide +kernel
    have hnum : Decimal.Binary.num ⟨false, 5192296858534828, -112⟩ = 5192296858534828 := rfl
    have hden : Decimal.Binary.den ⟨false, 5192296858534828, -112⟩ = 2 ^ 112 := rfl
    norm_num [exactValue, hparts, hnum, hden]
  obtain ⟨-, -, hgives, -⟩ := gives_up_iff_slow hvalid hfinite
  exact ⟨hvalid, hfinite, hlook, hslow, (hgives route).2 ⟨_, hlook, hslow⟩⟩

end Gatehouse.Admission
