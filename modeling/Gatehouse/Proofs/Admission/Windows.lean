import Gatehouse.Proofs.Admission.ExactBucket

/-!
# Admission by windows

What a client is told on a route is decided by its own calls alone. The tokens of a bucket are the
least of what every window that reaches back from now has left: the capacity and what flowed in
since the window began, less the calls admitted in it. So a call is admitted if and only if it fits
into each of these windows, and the clock of a window is the largest reading seen, never a reading
that goes back.

## Key results

- `Log.latest_append` / `Log.admitted_append`: later calls change nothing about earlier ones
- `Accounts.refill`: the tokens of a refilled bucket are the least headroom
- `Accounts.spend`: a decision by the least headroom, and the books after it
- `lawful_callsOf`: every call of a client on a route obeys the windows
- `admitted_iff_fits_windows`: the admission law
-/

namespace Gatehouse.Admission

/-- The calls of a client on a route: the reading of each and what was decided about it. -/
abbrev Log := List (Nat × Verdict)

namespace Log

/-- The largest of all readings. -/
def newest (log : Log) : Nat := (log.map Prod.fst).foldl max 0

/-- The largest reading up to a call. -/
def latest (log : Log) (k : Nat) : Nat := newest (log.take (k + 1))

/-- How many calls were admitted from the `i`-th on to before the `k`-th. -/
def admitted (log : Log) (i k : Nat) : Nat := ((log.take k).drop i).countP fun c => c.2 = .admitted

/-! ### One more call -/

/-- The newest reading is the last one or one before it. -/
theorem newest_snoc (log : Log) (now : Nat) (v : Verdict) :
    newest (log ++ [(now, v)]) = max (newest log) now := by
  simp only [newest, List.map_append, List.foldl_append, List.map_cons, List.map_nil,
    List.foldl_cons, List.foldl_nil]

/-- What comes later does not change the latest reading at a call. -/
theorem latest_append {log : Log} {k : Nat} (hk : k < log.length) (log' : Log) :
    latest (log ++ log') k = latest log k := by
  unfold latest
  rw [List.take_append_of_le_length (by omega)]

/-- The latest reading at the last call is the newest one. -/
theorem latest_of_length_le {log : Log} {k : Nat} (hk : log.length ≤ k + 1) :
    latest log k = newest log := by
  unfold latest
  rw [List.take_of_length_le hk]

/-- What comes later does not change how many calls of a window were admitted. -/
theorem admitted_append {log : Log} {k : Nat} (hk : k ≤ log.length) (log' : Log) (i : Nat) :
    admitted (log ++ log') i k = admitted log i k := by
  unfold admitted
  rw [List.take_append_of_le_length hk]

/-- A window that reaches to the last call counts it if it was admitted. -/
theorem admitted_snoc (log : Log) (now : Nat) (v : Verdict) {i : Nat} (hi : i ≤ log.length) :
    admitted (log ++ [(now, v)]) i (log.length + 1) =
      admitted log i log.length + if v = .admitted then 1 else 0 := by
  unfold admitted
  rw [List.take_of_length_le (by simp), List.take_length, List.drop_append_of_le_length hi,
    List.countP_append]
  by_cases hv : v = .admitted <;> simp [hv]

/-- Nothing is admitted in an empty window. -/
@[simp] theorem admitted_self (log : Log) (k : Nat) : admitted log k k = 0 := by
  unfold admitted
  rw [List.drop_of_length_le (List.length_take_le k log), List.countP_nil]

/-- A longer window has no fewer admitted calls. -/
theorem admitted_le_admitted_zero (log : Log) (i k : Nat) :
    admitted log i k ≤ admitted log 0 k := by
  unfold admitted
  rw [List.drop_zero]
  exact (List.drop_sublist i (log.take k)).countP_le

/-! ### Growing windows -/

/-- The newest reading does not go back when more calls come. -/
theorem newest_le_newest_append (log log' : Log) : newest log ≤ newest (log ++ log') := by
  induction log' using List.reverseRecOn with
  | nil => rw [List.append_nil]
  | append_singleton log' c ih =>
    rw [← List.append_assoc, newest_snoc]
    omega

/-- The latest reading does not go back from call to call. -/
theorem latest_mono (log : Log) {i k : Nat} (h : i ≤ k) : latest log i ≤ latest log k := by
  have hsplit : log.take (k + 1) = log.take (i + 1) ++ (log.take (k + 1)).drop (i + 1) := by
    rw [List.drop_take, ← List.take_add]
    congr 1
    omega
  rw [latest, latest, hsplit]
  exact newest_le_newest_append _ _

/-- No call has a later reading than the newest one. -/
theorem latest_le_newest (log : Log) (k : Nat) : latest log k ≤ newest log := by
  have := newest_le_newest_append (log.take (k + 1)) (log.drop (k + 1))
  rwa [List.take_append_drop] at this

/-- The latest reading at a call is its own one or that of the call before it. -/
theorem latest_succ {log : Log} {k : Nat} (hk : k + 1 < log.length) :
    latest log (k + 1) = max (latest log k) log[k + 1].1 := by
  rw [latest, List.take_add_one, List.getElem?_eq_getElem hk]
  exact newest_snoc (log.take (k + 1)) log[k + 1].1 log[k + 1].2

/-- Calls at one instant have that instant as their largest reading. -/
theorem latest_of_forall_eq {log : Log} {k now : Nat} (hk : k < log.length)
    (h : ∀ i (hi : i ≤ k), log[i].1 = now) : latest log k = now := by
  induction k with
  | zero =>
    have := h 0 le_rfl
    rw [latest, List.take_one, List.head?_eq_getElem?, List.getElem?_eq_getElem hk]
    simpa [newest] using this
  | succ k ih =>
    rw [latest_succ hk, ih (by omega) fun i hi => h i (by omega), h (k + 1) le_rfl, max_self]

end Log

/-! ## The books of a bucket -/

/-- What the window from the `i`-th to before the `k`-th call has left when the `k`-th comes. -/
def headroom (q : Quota Rat) (log : Log) (i k : Nat) : Rat :=
  q.capacity + span (log.latest k - log.latest i) * q.perSecond - log.admitted i k

/-- What the window from the `i`-th call on has left after all calls. -/
def balance (q : Quota Rat) (log : Log) (i : Nat) : Rat :=
  q.capacity + span (log.newest - log.latest i) * q.perSecond - log.admitted i log.length

/-- A bucket agrees with the calls that were made on it: there is none before the first call, and
    afterwards its tokens are the least balance of a window and no debt. -/
def Accounts (q : Quota Rat) (log : Log) : Option (Bucket Rat) → Prop
  | none => log = []
  | some b =>
    0 ≤ b.tokens ∧ b.updated = log.newest ∧ (∀ i < log.length, b.tokens ≤ balance q log i) ∧
      ∃ i < log.length, b.tokens = balance q log i

/-- Every call of a log was decided by the windows that reach back from it. -/
def Lawful (route : Route) (q : Quota Rat) (log : Log) : Prop :=
  ∀ k (hk : k < log.length),
    (log[k].2 = .admitted ↔ ∀ i ≤ k, 1 ≤ headroom q log i k) ∧
      (log[k].2 ≠ .admitted → ∃ wait, log[k].2 = .rejected route wait)

/-- What comes later does not change the room in a window. -/
theorem headroom_append {log : Log} {i k : Nat} (hi : i ≤ k) (hk : k < log.length) (q : Quota Rat)
    (log' : Log) : headroom q (log ++ log') i k = headroom q log i k := by
  rw [headroom, headroom, Log.latest_append hk, Log.latest_append (by omega),
    Log.admitted_append (by omega)]

/-- The windows of a new call have what their balance was and what flowed in since. -/
theorem headroom_snoc {q : Quota Rat} {log : Log} {i : Nat} (hi : i < log.length) (now : Nat)
    (v : Verdict) :
    headroom q (log ++ [(now, v)]) i log.length =
      balance q log i + span (now - log.newest) * q.perSecond := by
  have hle := log.latest_le_newest i
  have hspan : max log.newest now - log.latest i
      = (log.newest - log.latest i) + (now - log.newest) := by omega
  rw [headroom, balance, Log.latest_of_length_le (by simp), Log.newest_snoc,
    Log.latest_append hi, Log.admitted_append le_rfl, hspan, span_add]
  ring

/-- The window that begins with a new call has all of the capacity. -/
theorem headroom_self (q : Quota Rat) (log : Log) (k : Nat) : headroom q log k k = q.capacity := by
  rw [headroom, Nat.sub_self, span_zero, Log.admitted_self]
  simp

/-- After a call its windows have what they had before, less the token it took. -/
theorem balance_snoc {q : Quota Rat} {log : Log} {i : Nat} (hi : i ≤ log.length) (now : Nat)
    (v : Verdict) :
    balance q (log ++ [(now, v)]) i =
      headroom q (log ++ [(now, v)]) i log.length - if v = .admitted then 1 else 0 := by
  rw [headroom, balance, Log.latest_of_length_le (k := log.length) (by simp), List.length_append,
    List.length_singleton, Log.admitted_snoc log now v hi, Log.admitted_append le_rfl]
  push_cast
  ring

/-- The tokens of a refilled bucket are the least headroom of a window. -/
theorem Accounts.refill {q : Quota Rat} (hpos : 0 < q.perMinute) {log : Log}
    {cell : Option (Bucket Rat)} (h : Accounts q log cell) (now : Nat) (v : Verdict) :
    let b := (cell.getD (.full q now)).refill q now
    0 ≤ b.tokens ∧ b.updated = max log.newest now ∧
      (∀ i ≤ log.length, b.tokens ≤ headroom q (log ++ [(now, v)]) i log.length) ∧
      ∃ i ≤ log.length, b.tokens = headroom q (log ++ [(now, v)]) i log.length := by
  have hcap := q.one_le_capacity
  cases cell with
  | none =>
    -- The first call finds a full bucket, and the only window begins with it.
    simp only [Accounts] at h
    subst h
    rw [Option.getD_none, Bucket.refill_full]
    have htokens : (Bucket.full q now).tokens = q.capacity := rfl
    refine ⟨by rw [htokens]; linarith, by simp [Bucket.full, Log.newest], ?_, 0, le_rfl,
      (headroom_self _ _ _).symm⟩
    intro i hi
    obtain rfl : i = 0 := Nat.le_zero.1 hi
    exact (headroom_self _ _ _).ge
  | some b =>
    obtain ⟨h0, hu, hle, i₀, hi₀, heq⟩ := h
    have hflow := mul_nonneg (span_nonneg (now - log.newest)) (Quota.perSecond_pos hpos).le
    rw [Option.getD_some]
    refine ⟨?_, by rw [Bucket.updated_refill, hu], ?_, ?_⟩
    · rw [Bucket.tokens_refill, hu]
      exact le_min (by linarith) (by linarith)
    · intro i hi
      rw [Bucket.tokens_refill, hu]
      rcases Nat.lt_or_eq_of_le hi with hi | rfl
      · rw [headroom_snoc hi]
        have := hle i hi
        exact (min_le_left _ _).trans (by linarith)
      · rw [headroom_self]
        exact min_le_right _ _
    · -- Either the least window stays the least, or the capacity cuts the tokens off.
      rw [Bucket.tokens_refill, hu, heq, ← headroom_snoc hi₀ now v,
        ← headroom_self q (log ++ [(now, v)]) log.length]
      rcases min_choice (headroom q (log ++ [(now, v)]) i₀ log.length)
        (headroom q (log ++ [(now, v)]) log.length log.length) with hmin | hmin
      · exact ⟨i₀, hi₀.le, hmin⟩
      · exact ⟨log.length, le_rfl, hmin⟩

/-- A call is decided by the least headroom of a window, and the bucket agrees with the calls after
    it as it did before. -/
theorem Accounts.spend {q : Quota Rat} (hpos : 0 < q.perMinute) (hwait : 60 / q.perMinute < 2 ^ 64)
    (route : Route) {log : Log} {cell : Option (Bucket Rat)} (h : Accounts q log cell) (now : Nat) :
    let r := ((cell.getD (.full q now)).refill q now).spend route q
    (r.1 = .admitted ↔ ∀ i ≤ log.length, 1 ≤ headroom q (log ++ [(now, r.1)]) i log.length) ∧
      (r.1 ≠ .admitted → ∃ wait, r.1 = .rejected route wait) ∧
      Accounts q (log ++ [(now, r.1)]) (some r.2) := by
  intro r
  obtain ⟨h0, hu, hle, i₀, hi₀, heq⟩ := h.refill hpos now r.1
  have hdecide : 1 ≤ ((cell.getD (.full q now)).refill q now).tokens ↔
      ∀ i ≤ log.length, 1 ≤ headroom q (log ++ [(now, r.1)]) i log.length :=
    ⟨fun h1 i hi => h1.trans (hle i hi), fun hall => heq ▸ hall i₀ hi₀⟩
  -- After the call every window has lost the token that was taken.
  have hbooks : ∀ b : Bucket Rat, 0 ≤ b.tokens → b.updated = max log.newest now →
      b.tokens = ((cell.getD (.full q now)).refill q now).tokens
        - (if r.1 = .admitted then 1 else 0) → Accounts q (log ++ [(now, r.1)]) (some b) := by
    intro b hb0 hbu hb
    refine ⟨hb0, by rw [hbu, Log.newest_snoc], ?_, i₀, by simp; omega, ?_⟩
    · intro i hi
      have hi : i ≤ log.length := by simpa [Nat.lt_succ_iff] using hi
      rw [hb, balance_snoc hi]
      linarith [hle i hi]
    · rw [hb, balance_snoc hi₀, heq]
  by_cases hone : 1 ≤ ((cell.getD (.full q now)).refill q now).tokens
  · have hr : r = _ := Bucket.spend_of_one_le hone route q
    have hv : r.1 = .admitted := by rw [hr]
    refine ⟨by simp only [hv, true_iff]; exact hv ▸ hdecide.1 hone, fun hne => absurd hv hne, ?_⟩
    apply hbooks
    · rw [hr]
      simp only
      linarith
    · rw [hr, hu]
    · rw [if_pos hv, hr]
  · obtain ⟨wait, hr⟩ : ∃ wait, r = _ :=
      Bucket.spend_of_lt_one h0 (not_le.1 hone) route hpos hwait
    have hv : r.1 ≠ .admitted := by rw [hr]; simp
    refine ⟨⟨fun h => absurd h hv, fun h => absurd (hdecide.2 h) hone⟩,
      fun _ => ⟨wait, by rw [hr]⟩, ?_⟩
    apply hbooks
    · rw [hr]
      exact h0
    · rw [hr, hu]
    · rw [if_neg hv, hr, sub_zero]

/-! ## Runs -/

/-- A log stays lawful if the next call is admitted where it has room in every window, and only
    there. -/
theorem Lawful.snoc {route : Route} {q : Quota Rat} {log : Log} (h : Lawful route q log) {now : Nat}
    {v : Verdict}
    (hv : v = .admitted ↔ ∀ i ≤ log.length, 1 ≤ headroom q (log ++ [(now, v)]) i log.length)
    (hr : v ≠ .admitted → ∃ wait, v = .rejected route wait) :
    Lawful route q (log ++ [(now, v)]) := by
  intro k hk
  -- The windows of the earlier calls do not reach as far as the new one.
  rcases Nat.lt_or_ge k log.length with hlt | hge
  · rw [List.getElem_append_left hlt]
    obtain ⟨hiff, hrej⟩ := h k hlt
    refine ⟨hiff.trans ?_, hrej⟩
    constructor
    · intro hall i hi
      rw [headroom_append hi hlt]
      exact hall i hi
    · intro hall i hi
      rw [← headroom_append hi hlt q [(now, v)]]
      exact hall i hi
  · obtain rfl : k = log.length := by
      rw [List.length_append, List.length_singleton] at hk
      omega
    rw [List.getElem_append_right le_rfl]
    simp only [Nat.sub_self, List.getElem_cons_zero]
    exact ⟨hv, hr⟩

/-- The calls of a client on a route among the decisions of a gate. -/
def callsOf (t : Table Rat) (route : Route) (client : String) (ds : List (Event × Verdict)) : Log :=
  (ds.filter fun d => d.1.concerns t route client).map fun d => (d.1.reading, d.2)

/-- A decision about the route and the client goes into their log. -/
theorem callsOf_cons_of_concerns {t : Table Rat} {route : Route} {client : String} {e : Event}
    (h : e.concerns t route client = true) (v : Verdict) (ds : List (Event × Verdict)) :
    callsOf t route client ((e, v) :: ds) = (e.reading, v) :: callsOf t route client ds := by
  simp only [callsOf, List.filter_cons, h, if_true, List.map_cons]

/-- A decision about others stays out of the log. -/
theorem callsOf_cons_of_not_concerns {t : Table Rat} {route : Route} {client : String} {e : Event}
    (h : ¬e.concerns t route client = true) (v : Verdict) (ds : List (Event × Verdict)) :
    callsOf t route client ((e, v) :: ds) = callsOf t route client ds := by
  simp only [callsOf, List.filter_cons, h, Bool.false_eq_true, if_false]

/-- A request of the client on the route is one more call on the bucket, and every other event
    leaves the bucket and the log alone. -/
private theorem lawful_append_callsOf {t : Table Rat} {route : Route} {q : Quota Rat}
    (hq : t.lookup route.method route.pathPrefix = some (route, q)) (hpos : 0 < q.perMinute)
    (hwait : 60 / q.perMinute < 2 ^ 64) (client : String) (events : List Event) (g : Gate Rat)
    (hkeeps : g.Keeps (route, client) events) (hg : g.table = t) (log : Log)
    (hacc : Accounts q log (g.buckets.get? (route, client))) (hlaw : Lawful route q log) :
    Lawful route q (log ++ callsOf t route client (g.decisions events)) := by
  -- By induction on the events, with the calls so far as the log of the bucket.
  induction events generalizing g log with
  | nil => simpa [callsOf, Gate.decisions] using hlaw
  | cons e events ih =>
    obtain ⟨hkeep, hkeeps⟩ := hkeeps
    cases e with
    | sweep maxIdle now =>
      rw [Gate.decisions_sweep]
      exact ih _ hkeeps hg log (hkeep rfl ▸ hacc) hlaw
    | request c method path now =>
      rw [Gate.decisions_request]
      have hg' := (g.table_check c method path now).trans hg
      by_cases hmine : (Event.request c method path now).concerns t route client = true
      · rw [callsOf_cons_of_concerns hmine, List.append_cons]
        obtain ⟨rfl, q', hlook⟩ := Event.concerns_request_iff.1 hmine
        obtain rfl := Table.quota_unique hq hlook
        have hlook' : g.table.lookup method path = some (route, q) := hg ▸ hlook
        obtain ⟨hv, hr, hacc'⟩ := hacc.spend hpos hwait route now
        apply ih (g.check c method path now).2 hkeeps hg'
        · rw [Gate.check_eq hlook', Dict.get?_insert_self]
          exact hacc'
        · rw [Gate.check_eq hlook']
          exact hlaw.snoc hv hr
      · rw [callsOf_cons_of_not_concerns hmine]
        apply ih (g.check c method path now).2 hkeeps hg' log ?_ hlaw
        rw [Gate.get?_check_of_not_concerns (hg ▸ hmine)]
        exact hacc

/-- The calls of a client on a route obey the windows, whatever else comes to the gate. -/
theorem lawful_callsOf {t : Table Rat} {route : Route} {q : Quota Rat}
    (hq : t.lookup route.method route.pathPrefix = some (route, q)) (hpos : 0 < q.perMinute)
    (hwait : 60 / q.perMinute < 2 ^ 64) (client : String) (events : List Event)
    (hkeeps : (Gate.ofTable t).Keeps (route, client) events) :
    Lawful route q (callsOf t route client ((Gate.ofTable t).decisions events)) :=
  lawful_append_callsOf hq hpos hwait client events (Gate.ofTable t) hkeeps rfl [] rfl
    (fun _ hk => absurd hk (Nat.not_lt_zero _))

/-! ## What the windows allow -/

namespace Lawful

variable {route : Route} {q : Quota Rat} {log : Log}

/-- A window with one more call counts it if it was admitted. -/
theorem admitted_succ {log : Log} {i k : Nat} (hi : i ≤ k) (hk : k < log.length) :
    log.admitted i (k + 1) = log.admitted i k + if log[k].2 = .admitted then 1 else 0 := by
  have hsplit : log.take (k + 1) = log.take k ++ [log[k]] := by
    rw [List.take_add_one, List.getElem?_eq_getElem hk]
    rfl
  have hlen : (log.take k).length = k := List.length_take_of_le hk.le
  have := Log.admitted_snoc (log.take k) log[k].1 log[k].2 (i := i) (by omega)
  rw [hlen] at this
  have hk1 : Log.admitted (log.take (k + 1)) i (k + 1) = Log.admitted log i (k + 1) := by
    rw [Log.admitted, Log.admitted, List.take_take, Nat.min_self]
  have hk0 : Log.admitted (log.take k) i k = Log.admitted log i k := by
    rw [Log.admitted, Log.admitted, List.take_take, Nat.min_self]
  rw [← hk1, hsplit, this, hk0]

/-- No window admits more than the capacity and what flows in while it is open. -/
theorem admitted_le (h : Lawful route q log) (hpos : 0 < q.perMinute) {i k : Nat} (hi : i ≤ k)
    (hk : k < log.length) :
    (log.admitted i (k + 1) : Rat) ≤
      q.capacity + span (log.latest k - log.latest i) * q.perSecond := by
  have hr := Quota.perSecond_pos hpos
  -- By induction on the end of the window.
  induction k, hi using Nat.le_induction with
  | base =>
    rw [admitted_succ le_rfl hk, Log.admitted_self, Nat.sub_self, span_zero]
    have := q.one_le_capacity
    split <;> push_cast <;> linarith
  | succ k hik ih =>
    rw [admitted_succ (by omega) hk]
    by_cases hv : log[k + 1].2 = .admitted
    · -- an admitted call has fitted into every window
      have := ((h (k + 1) hk).1.1 hv) i (by omega)
      rw [headroom] at this
      rw [if_pos hv]
      push_cast
      linarith
    -- A call that was refused adds nothing, and the window grows no shorter.
    · have hmono := mul_le_mul_of_nonneg_right
        (span_mono (Nat.sub_le_sub_right (log.latest_mono (Nat.le_succ k)) (log.latest i))) hr.le
      have := ih (by omega)
      rw [if_neg hv, Nat.add_zero]
      linarith

/-- After a refusal a reading that is not above the largest one so far is refused as well. -/
theorem refused_succ (h : Lawful route q log) {k : Nat} (hk : k + 1 < log.length)
    (hstale : log[k + 1].1 ≤ log.latest k) (href : log[k].2 ≠ .admitted) :
    log[k + 1].2 ≠ .admitted := by
  have hlatest : log.latest (k + 1) = log.latest k := by
    rw [Log.latest_succ hk, max_eq_left hstale]
  intro hadm
  apply href
  rw [(h k (by omega)).1]
  intro i hi
  have := ((h (k + 1) hk).1.1 hadm) i (by omega)
  rw [headroom, hlatest, admitted_succ hi (by omega), if_neg href] at this
  exact this

/-- Of the calls at one instant exactly as many are admitted as the bucket holds tokens. -/
theorem admitted_iff_lt_capacity (h : Lawful route q log) {k : Nat} (hk : k < log.length)
    (hsame : ∀ i ≤ k, log.latest i = log.latest 0) :
    log[k].2 = .admitted ↔ k < q.burst + 1 := by
  -- With no time between the calls the longest window decides.
  have hdecide : ∀ j (hj : j < log.length), j ≤ k →
      (log[j].2 = .admitted ↔ log.admitted 0 j < q.burst + 1) := by
    intro j hj hjk
    rw [(h j hj).1]
    have hroom : ∀ i ≤ j, (1 ≤ headroom q log i j ↔ log.admitted i j < q.burst + 1) := by
      intro i hi
      rw [headroom, hsame j hjk, hsame i (by omega), Nat.sub_self, span_zero, zero_mul, add_zero,
        Quota.capacity_eq, Nat.lt_succ_iff, ← Nat.cast_le (α := Rat)]
      constructor <;> intro _ <;> linarith
    constructor
    · intro hall
      exact (hroom 0 (Nat.zero_le j)).1 (hall 0 (Nat.zero_le j))
    · intro hlt i hi
      exact (hroom i hi).2 (Nat.lt_of_le_of_lt (Log.admitted_le_admitted_zero log i j) hlt)
  have hcount : ∀ j ≤ k, log.admitted 0 j = min j (q.burst + 1) := by
    intro j hj
    induction j with
    | zero => simp
    | succ j ih =>
      have hjlen : j < log.length := by omega
      have ih := ih (by omega)
      rw [admitted_succ (Nat.zero_le j) hjlen, ih]
      by_cases hv : log[j].2 = .admitted
      · have := (hdecide j hjlen (by omega)).1 hv
        rw [if_pos hv]
        omega
      · have := mt (hdecide j hjlen (by omega)).2 hv
        rw [if_neg hv]
        omega
  rw [hdecide k hk le_rfl, hcount k le_rfl]
  omega

end Lawful

/-- The admission law. Of the calls of a client on a route, whatever else comes to the gate and in
    whatever order the readings come, a call is admitted if and only if it fits into every window
    that reaches back from it, and is told to wait otherwise. So no window admits more than the
    capacity and what flows in while it is open, at one instant exactly the first `burst + 1` calls
    are admitted, and after a refusal a reading that is not a new largest one is refused too. -/
theorem admitted_iff_fits_windows (t : Table Rat) (route : Route) (q : Quota Rat) (client : String)
    (hq : t.lookup route.method route.pathPrefix = some (route, q)) (hpos : 0 < q.perMinute)
    (hwait : 60 / q.perMinute < 2 ^ 64) (events : List Event)
    (hkeeps : (Gate.ofTable t).Keeps (route, client) events) :
    let log := callsOf t route client ((Gate.ofTable t).decisions events)
    (∀ k (hk : k < log.length),
      (log[k].2 = .admitted ↔ ∀ i ≤ k, (log.admitted i k : Rat) + 1 ≤
        (q.burst + 1) + q.perMinute / 60 * span (log.latest k - log.latest i)) ∧
      (log[k].2 ≠ .admitted → ∃ wait, log[k].2 = .rejected route wait)) ∧
    (∀ k < log.length, ∀ i ≤ k, (log.admitted i (k + 1) : Rat) ≤
      (q.burst + 1) + q.perMinute / 60 * span (log.latest k - log.latest i)) ∧
    (∀ k (hk : k < log.length), (∀ i (_ : i ≤ k), log[i].1 = log[0].1) →
      (log[k].2 = .admitted ↔ k < q.burst + 1)) ∧
    (∀ k (hk : k + 1 < log.length), log[k + 1].1 ≤ log.latest k → log[k].2 ≠ .admitted →
      log[k + 1].2 ≠ .admitted) := by
  intro log
  have hlaw : Lawful route q log := lawful_callsOf hq hpos hwait client events hkeeps
  have hroom : ∀ i k, 1 ≤ headroom q log i k ↔ (log.admitted i k : Rat) + 1 ≤
      (q.burst + 1) + q.perMinute / 60 * span (log.latest k - log.latest i) := by
    intro i k
    rw [headroom, Quota.capacity_eq, Quota.perSecond_eq]
    constructor <;> intro h <;> linarith
  refine ⟨fun k hk => ⟨?_, (hlaw k hk).2⟩, fun k hk i hi => ?_, fun k hk hsame => ?_,
    fun k hk => ?_⟩
  · rw [(hlaw k hk).1]
    simp only [hroom]
  · have := hlaw.admitted_le hpos hi hk
    rw [Quota.capacity_eq, Quota.perSecond_eq] at this
    linarith
  · have hinstant : ∀ i ≤ k, log.latest i = log[0].1 := fun i hi =>
      Log.latest_of_forall_eq (by omega) fun j hj => hsame j (by omega)
    apply hlaw.admitted_iff_lt_capacity hk
    intro i hi
    rw [hinstant i hi, hinstant 0 (Nat.zero_le k)]
  · exact hlaw.refused_succ hk

/-- Sign-in attempts of two clients with a reading that goes back and a sweep that keeps what it
    finds. Of the four attempts of the first client the third is refused. -/
theorem admitted_iff_fits_windows_sign_in :
    let client := "10.0.0.1"
    let route : Route := ⟨.post, "/auth/"⟩
    let events : List Event := [
      .request client .post "/auth/login" 2000000000,
      .request client .post "/auth/reset" 1000000000,
      .sweep 5000000000 2000000000,
      .request "10.0.0.2" .post "/auth/login" 3000000000,
      .request client .post "/auth/login" 2000000000,
      .request client .post "/auth/login" 3000000000]
    let log := callsOf signInTable route client ((Gate.ofTable signInTable).decisions events)
    signInTable.lookup route.method route.pathPrefix = some (route, ⟨60, 1⟩) ∧
      (0 : Rat) < 60 ∧ (60 / 60 : Rat) < 2 ^ 64 ∧
      (Gate.ofTable signInTable).Keeps (route, client) events ∧
      log.map Prod.snd = [.admitted, .admitted, .rejected route 1000000000, .admitted] ∧
      ∀ k (hk : k < log.length),
        (log[k].2 = .admitted ↔ ∀ i ≤ k, (log.admitted i k : Rat) + 1 ≤
          ((1 : Nat) + 1) + 60 / 60 * span (log.latest k - log.latest i)) := by
  intro client route events log
  have hwait : (60 / 60 : Rat) < 2 ^ 64 := by norm_num
  have hkeeps : (Gate.ofTable signInTable).Keeps (route, client) events := by
    refine ⟨nofun, nofun, fun _ => Gate.get?_sweep_of_lt (q := ⟨60, 1⟩) ?_ (by decide) client,
      nofun, nofun, nofun, trivial⟩
    rw [Gate.table_meet, Gate.table_meet]
    exact lookup_signInTable
  exact ⟨lookup_signInTable, by norm_num, hwait, hkeeps, by decide +kernel, fun k hk =>
    ((admitted_iff_fits_windows signInTable route ⟨60, 1⟩ client lookup_signInTable (by norm_num)
      hwait events hkeeps).1 k hk).1⟩

end Gatehouse.Admission
