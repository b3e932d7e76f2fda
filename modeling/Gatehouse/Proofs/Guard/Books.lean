import Gatehouse.Proofs.Admission.Bookkeeping
import Gatehouse.Proofs.Guard.Order

/-!
# The books of a guarded service

Requests come to a guarded service, and sweeps between them. Each visit is entered with what it
found and what it left, so that the totals at the desk can be held against what happened: how many
requests took a token, how many were refused on each route, and how many buckets there are.

What a request finds at the desk is its bucket, refilled; one that is answered in front, or that no
quota governs, finds none. A reply is the guards' own if they give it whatever stands behind them.

## Key results

- `booked_step`: how one visit changes the desk, and what is noted about it
- `admitted_run` / `limitedOn_run`: the totals are sums over the visits
- `current_run` / `isSome_buckets_run`: the number of buckets is right from the first note on
- `books_balance`: the totals after every history of a fresh desk
-/

namespace Gatehouse.Guard

open Admission
open Http (Handler Request Response)

variable {α τ : Type} [TokenArith α]

instance (s : Settings) (r : Request) : Decidable (AnsweredInFront s r) :=
  decidable_of_iff (r.method = .options ∨ refusesPlaintext s = true ∧ ¬cameEncrypted r = true) <| by
    rw [AnsweredInFront, InPlain, refusesPlaintext_iff, cameEncrypted_iff, and_assoc]

/-- What comes to a guarded service. -/
inductive Visit
  | request (r : Request)
  | sweep (maxIdle now : Nat)

/-- What one visit brought about. -/
structure Step (α : Type) where
  visit : Visit
  /-- The desk that the visit came to. -/
  before : Desk α
  /-- The reply, if the visit was a request and got one. -/
  reply : Option Response
  /-- How many buckets were dropped, as a sweep says. -/
  dropped : Nat
  /-- The desk that the visit left. -/
  after : Desk α

/-- A visit to a desk, with the handler behind the guards in some state. -/
def step (s : Settings) (inner : Handler τ) (d : Desk α) (t : τ) : Visit → Step α × τ
  | .request r =>
    let (reply, d', t') := (line s).wrap (.behind inner) r (d, t)
    (⟨.request r, d, reply, 0, d'⟩, t')
  | .sweep maxIdle now =>
    let (n, d') := d.sweep maxIdle now
    (⟨.sweep maxIdle now, d, none, n, d'⟩, t)

/-- What the guards reply by themselves: the reply with nothing behind them that gives one. -/
def ownReply (s : Settings) (d : Desk α) (r : Request) : Option Response :=
  ((line s).wrap (.behind fun _ t => (none, t)) r (d, ())).1

/-- Visits one after the other, and the desk after the last. -/
def run (s : Settings) (inner : Handler τ) : List Visit → Desk α → τ → List (Step α) × Desk α
  | [], d, _ => ([], d)
  | v :: vs, d, t =>
    let (e, t) := step s inner d t v
    let (steps, d) := run s inner vs e.after t
    (e :: steps, d)

namespace Step

/-- Whether a sweep came. -/
def isSweep (e : Step α) : Bool :=
  match e.visit with
  | .request _ => false
  | .sweep _ _ => true

/-- Whether a request came that a route governs. -/
def governedBy (route : Route) (e : Step α) : Bool :=
  match e.visit with
  | .request r => (e.before.gate.table.lookup r.method r.path).map Prod.fst = some route
  | .sweep _ _ => false

/-- The bucket that a request finds at the desk, refilled, and whose it is. -/
def found (s : Settings) (e : Step α) : Option ((Route × String) × Bucket α) :=
  match e.visit with
  | .request r =>
    if AnsweredInFront s r then none
    else (e.before.gate.table.lookup r.method r.path).map fun (route, q) =>
      ((route, clientOf r), e.before.gate.bucketAt route q (clientOf r) r.arrival)
  | .sweep _ _ => none

/-- Whether a request found a token. -/
def spends (s : Settings) (e : Step α) : Bool := (e.found s).any fun f => f.2.take?.isSome

/-- Whether the reply was that there are too many requests. -/
def limited (e : Step α) : Bool := e.reply.any fun p => p.status = 429

/-- Whether the guards themselves replied that there are too many requests. -/
def refused (s : Settings) (e : Step α) : Bool :=
  match e.visit with
  | .request r => (ownReply s e.before r).any fun p => p.status = 429
  | .sweep _ _ => false

end Step

/-! ## One visit -/

/-- What one visit changes, and what the desk notes about it. -/
structure Booked (s : Settings) (e : Step α) : Prop where
  table : e.after.gate.table = e.before.gate.table
  /-- A request that found a token leaves the bucket with the token taken out. -/
  spent : ∀ key b b', e.found s = some (key, b) → b.take? = some b' →
    e.after.gate.buckets.get? key = some b'
  /-- A request that found none leaves the bucket as it found it, and adds none. -/
  unspent : ∀ key b, e.found s = some (key, b) → b.take? = none →
    e.after.gate.buckets.get? key = some b ∧ e.after.gate.size = e.before.gate.size
  /-- No request touches another bucket. -/
  others : ∀ key, e.isSweep = false → (∀ b, e.found s ≠ some (key, b)) →
    e.after.gate.buckets.get? key = e.before.gate.buckets.get? key
  /-- A client that has no bucket on the route yet finds a token. -/
  fresh : ∀ key b, e.found s = some (key, b) → e.before.gate.buckets.get? key = none →
    e.spends s = true
  /-- A request that is answered in front, or that no quota governs, changes nothing at the desk. -/
  passed : e.isSweep = false → e.found s = none → e.after = e.before
  /-- A sweep says how many buckets it dropped. -/
  swept : e.isSweep = true → e.after.gate.size + e.dropped = e.before.gate.size
  admitted : e.after.metrics.admitted = e.before.metrics.admitted + if e.spends s then 1 else 0
  limitedOn : ∀ route : Route, e.after.metrics.limitedOn route.label =
    e.before.metrics.limitedOn route.label + if e.governedBy route && e.refused s then 1 else 0
  buckets : e.after.metrics.buckets =
    if e.spends s || e.isSweep then some e.after.gate.size else e.before.metrics.buckets

/-- A sweep books how many buckets it leaves, and nothing else. -/
theorem booked_sweep (s : Settings) (d : Desk α) (maxIdle now : Nat) :
    let swept := d.sweep maxIdle now
    Booked s ⟨.sweep maxIdle now, d, none, swept.1, swept.2⟩ := by
  intro swept
  constructor
  case swept => exact fun _ => d.gate.size_sweep maxIdle now
  case table | admitted | limitedOn | buckets => intros; rfl
  all_goals exact nofun

/-- A request that is answered in front leaves nothing to book. -/
theorem booked_of_answeredInFront {s : Settings} {r : Request} {e : Step α}
    (h : AnsweredInFront s r) (he : e.visit = .request r) (hafter : e.after = e.before) :
    Booked s e := by
  have hfound : e.found s = none := by
    simp only [Step.found, he, if_pos h]
  have hrefused : e.refused s = false := by
    simp only [Step.refused, he, ownReply]
    by_cases hr : r.method = .options
    · rw [wrap_line_of_options _ hr]
      rfl
    · rw [wrap_line_of_inPlain _ hr (h.resolve_left hr)]
      rfl
  have hsweep : e.isSweep = false := by rw [Step.isSweep, he]
  constructor <;> simp [hfound, hrefused, hsweep, hafter, Step.spends]

section Asked

variable {s : Settings} {r : Request} {e : Step α}

/-- A request that no route governs is not limited and books nothing. -/
theorem asked_of_lookup_none {d : Desk α} (h : d.gate.table.lookup r.method r.path = none) :
    asked d r = (.unlimited, d) := by
  rw [asked, Desk.check_eq, Gate.check_of_lookup_none h]
  rfl

/-- A request that a route governs is decided by the bucket of its client. -/
theorem fst_asked {d : Desk α} {route : Route} {q : Quota α}
    (h : d.gate.table.lookup r.method r.path = some (route, q)) :
    (asked d r).1 = ((d.gate.bucketAt route q (clientOf r) r.arrival).spend route q).1 :=
  congrArg Prod.fst (Gate.check_eq h (clientOf r) r.arrival)

/-- A request that comes to the desk is refused by the guards if and only if the desk rejects it. -/
theorem refused_of_asked (henabled : s.admission.enabled = true) (h : ¬AnsweredInFront s r)
    (he : e.visit = .request r) (route : Route) :
    (e.governedBy route && e.refused s) = (asked e.before r).1.rejectedOn route := by
  simp only [Step.governedBy, Step.refused, he, ownReply,
    wrap_line_of_not_answeredInFront _ h, henabled, if_true, throttle_behind]
  -- Nothing replies behind the desk, so there is a reply only if the desk rejects the request.
  cases hlook : e.before.gate.table.lookup r.method r.path with
  | none => simp [asked_of_lookup_none hlook, Verdict.rejectedOn]
  | some entry =>
    obtain ⟨route', q⟩ := entry
    rw [fst_asked hlook, Bucket.spend]
    cases (e.before.gate.bucketAt route' q (clientOf r) r.arrival).take? with
    | some b => simp [Verdict.rejectedOn]
    | none =>
      cases TokenArith.span? ((e.before.gate.bucketAt route' q (clientOf r) r.arrival).wait q) with
      | some wait => simp [Verdict.rejectedOn, permitted, rejection, Response.plain]
      | none => simp [Verdict.rejectedOn]

/-- A request that comes to the gate finds the bucket of its route and its client. -/
theorem found_eq_some_iff (h : ¬AnsweredInFront s r) (he : e.visit = .request r)
    (key : Route × String) (b : Bucket α) :
    e.found s = some (key, b) ↔ ∃ route q, e.before.gate.table.lookup r.method r.path =
      some (route, q) ∧ key = (route, clientOf r) ∧
        b = e.before.gate.bucketAt route q (clientOf r) r.arrival := by
  simp only [Step.found, he, if_neg h, Option.map_eq_some_iff, Prod.mk.injEq, Prod.exists]
  constructor <;> rintro ⟨route, q, hlook, rfl, rfl⟩ <;> exact ⟨route, q, hlook, rfl, rfl⟩

/-- A request that comes to the desk finds a token if and only if the desk admits it. -/
theorem spends_iff_of_asked (h : ¬AnsweredInFront s r) (he : e.visit = .request r) :
    e.spends s = true ↔ (asked e.before r).1 = .admitted := by
  cases hlook : e.before.gate.table.lookup r.method r.path with
  | none => simp [Step.spends, Step.found, he, h, hlook, asked_of_lookup_none hlook]
  | some entry =>
    obtain ⟨route, q⟩ := entry
    rw [fst_asked hlook, Bucket.fst_spend_eq_admitted_iff, Step.spends,
      (found_eq_some_iff h he _ _).2 ⟨route, q, hlook, rfl, rfl⟩, Option.any_some]

/-- A request that comes to the desk is booked there. -/
theorem booked_of_asked [FullHoldsToken α] (henabled : s.admission.enabled = true)
    (h : ¬AnsweredInFront s r) (he : e.visit = .request r)
    (hafter : e.after = (asked e.before r).2) : Booked s e := by
  have hfound := found_eq_some_iff h he
  have hspends := spends_iff_of_asked h he
  have hsweep : e.isSweep = false := by rw [Step.isSweep, he]
  -- What the desk holds afterwards is one decision of the gate and one note about it.
  have hgate : e.after.gate = (e.before.gate.check (clientOf r) r.method r.path r.arrival).2 :=
    hafter ▸ rfl
  have hmetrics : e.after.metrics =
      e.before.metrics.record (asked e.before r).1 e.after.gate.size := by
    rw [hgate, hafter]
    rfl
  have hbucket : ∀ key b, e.found s = some (key, b) →
      e.after.gate.buckets.get? key = some (b.take?.getD b) := by
    intro key b hkey
    obtain ⟨route, q, hlook, rfl, rfl⟩ := (hfound key b).1 hkey
    rw [hgate, Gate.check_eq hlook, Dict.get?_insert_self, Bucket.snd_spend]
  constructor
  case table => rw [hgate, Gate.table_check]
  case spent =>
    intro key b b' hkey htake
    rw [hbucket key b hkey, htake, Option.getD_some]
  case unspent =>
    intro key b hkey htake
    have hspent : ¬e.spends s = true := by
      rw [Step.spends, hkey, Option.any_some, htake, Option.isSome_none]
      exact Bool.false_ne_true
    rw [hbucket key b hkey, htake, Option.getD_none, hgate]
    exact ⟨rfl, Gate.size_check_of_ne_admitted (mt hspends.2 hspent)⟩
  case others =>
    intro key _ hother
    rw [hgate, Gate.get?_check]
    cases hlook : e.before.gate.table.lookup r.method r.path with
    | none => rfl
    | some entry =>
      obtain ⟨route, q⟩ := entry
      -- The gate puts a bucket back under one key only, and that one was found.
      refine if_neg ?_
      rintro rfl
      exact hother _ ((hfound _ _).2 ⟨route, q, hlook, rfl, rfl⟩)
  case fresh =>
    intro key b hkey hnone
    obtain ⟨route, q, hlook, rfl, rfl⟩ := (hfound key b).1 hkey
    rw [Step.spends, hkey, Option.any_some]
    exact Gate.isSome_take?_bucketAt hnone q r.arrival
  case passed =>
    intro _ hnone
    have hlook : e.before.gate.table.lookup r.method r.path = none := by
      rw [Option.eq_none_iff_forall_ne_some]
      rintro ⟨route, q⟩ hlook
      rw [(hfound _ _).2 ⟨route, q, hlook, rfl, rfl⟩] at hnone
      cases hnone
    rw [hafter, asked_of_lookup_none hlook]
  case swept => rw [hsweep]; exact nofun
  case admitted => rw [hmetrics, Metrics.admitted_record, if_congr hspends rfl rfl]
  case limitedOn =>
    intro route
    rw [hmetrics, Metrics.limitedOn_record, refused_of_asked henabled h he]
  case buckets =>
    rw [hmetrics, Metrics.buckets_record, hsweep, Bool.or_false, if_congr hspends rfl rfl]

end Asked

/-- Every visit is booked. -/
theorem booked_step [FullHoldsToken α] {s : Settings} (henabled : s.admission.enabled = true)
    (inner : Handler τ) (d : Desk α) (t : τ) (v : Visit) : Booked s (step s inner d t v).1 := by
  cases v with
  | sweep maxIdle now => exact booked_sweep s d maxIdle now
  | request r =>
    by_cases h : AnsweredInFront s r
    · exact booked_of_answeredInFront h rfl
        (congrArg Prod.fst (state_of_answeredInFront inner h (d, t)))
    · refine booked_of_asked henabled h rfl ?_
      simp only [step, wrap_line_of_not_answeredInFront _ h, henabled, if_true, throttle_behind]
      cases (asked d r).1 <;> rfl

/-- Only an admission or a sweep changes the number of buckets. -/
theorem Booked.size_eq {s : Settings} {e : Step α} (h : Booked s e) (hspends : e.spends s = false)
    (hsweep : e.isSweep = false) : e.after.gate.size = e.before.gate.size := by
  cases hfound : e.found s with
  | none => rw [h.passed hsweep hfound]
  | some f =>
    rw [Step.spends, hfound, Option.any_some, Option.isSome_eq_false_iff, Option.isNone_iff_eq_none]
      at hspends
    exact (h.unspent f.1 f.2 hfound hspends).2

/-- What was noted stays right: it is renewed whenever the number of buckets may change. -/
theorem Booked.current {s : Settings} {e : Step α} (h : Booked s e) (hbefore : e.before.Current) :
    e.after.Current := by
  intro n hn
  rw [h.buckets] at hn
  split at hn
  · exact (Option.some.inj hn).symm
  · next hquiet =>
    simp only [Bool.or_eq_true, not_or, Bool.not_eq_true] at hquiet
    rw [hbefore n hn, h.size_eq hquiet.1 hquiet.2]

/-- A reply is the guards' own, or they give none and it is that of the handler behind them, with
    the permission. -/
theorem reply_step {s : Settings} (henabled : s.admission.enabled = true) (inner : Handler τ)
    (d : Desk α) (t : τ) (r : Request) :
    let reply := (step s inner d t (.request r)).1.reply
    reply = ownReply s d r ∨ ownReply s d r = none ∧ reply = (inner r t).1.map permitted := by
  by_cases h : AnsweredInFront s r
  · left
    simp only [step, ownReply]
    by_cases hr : r.method = .options
    · simp only [wrap_line_of_options _ hr]
    · simp only [wrap_line_of_inPlain _ hr (h.resolve_left hr)]
  · simp only [step, ownReply, wrap_line_of_not_answeredInFront _ h, henabled, if_true,
      throttle_behind]
    -- Whoever is let in gets the reply from behind, and nobody else does.
    cases (asked d r).1 with
    | unlimited | admitted => exact .inr ⟨rfl, rfl⟩
    | rejected route wait | unrepresentable route => exact .inl rfl

/-- What the guards refuse is replied. -/
theorem limited_of_refused {s : Settings} (henabled : s.admission.enabled = true)
    (inner : Handler τ) (d : Desk α) (t : τ) (v : Visit)
    (h : (step s inner d t v).1.refused s = true) : (step s inner d t v).1.limited = true := by
  cases v with
  | sweep maxIdle now => cases h
  | request r =>
    obtain hown | ⟨hnone, -⟩ := reply_step henabled inner d t r
    · rw [Step.limited, hown]
      exact h
    · simp only [Step.refused, step, hnone, Option.any_none, Bool.false_eq_true] at h

/-- If the handler behind the guards never says that there are too many requests, the guards do. -/
theorem limited_eq_refused {s : Settings} (henabled : s.admission.enabled = true)
    {inner : Handler τ} (hinner : ∀ r t, ∀ p ∈ (inner r t).1, p.status ≠ 429) (d : Desk α) (t : τ)
    (v : Visit) : (step s inner d t v).1.limited = (step s inner d t v).1.refused s := by
  cases v with
  | sweep maxIdle now => rfl
  | request r =>
    obtain hown | ⟨hnone, hreply⟩ := reply_step henabled inner d t r
    · rw [Step.limited, hown]
      rfl
    · have hrefused : (step s inner d t (.request r)).1.refused s = false := by
        simp only [Step.refused, step, hnone, Option.any_none]
      rw [hrefused, Step.limited, hreply, Option.any_map, Option.any_eq_false]
      intro p hp
      exact decide_eq_false (hinner r t p hp)

/-! ## One visit after the other -/

section Run

variable {s : Settings} {inner : Handler τ} {visits : List Visit} {d : Desk α} {t : τ}

/-- The first visit comes first, and the others find what it leaves. -/
@[simp] theorem run_cons (v : Visit) : run s inner (v :: visits) d t =
    ((step s inner d t v).1 ::
      (run s inner visits (step s inner d t v).1.after (step s inner d t v).2).1,
    (run s inner visits (step s inner d t v).1.after (step s inner d t v).2).2) := rfl

/-- What holds of every visit to the service holds of every step of a run. -/
theorem forall_mem_run {P : Step α → Prop} (h : ∀ d t v, P (step s inner d t v).1) :
    ∀ e ∈ (run s inner visits d t).1, P e := by
  induction visits generalizing d t with
  | nil => exact nofun
  | cons v visits ih => exact List.forall_mem_cons.2 ⟨h d t v, ih⟩

/-- An episode begins with the desk that it finds. -/
theorem before_step (d : Desk α) (t : τ) (v : Visit) : (step s inner d t v).1.before = d := by
  cases v <;> rfl

/-- A count that every step adds to or leaves is the number of steps that added to it. -/
theorem total_run (total : Metrics → Nat) {counts : Step α → Bool}
    (h : ∀ d t v, let e := (step s inner d t v).1
      total e.after.metrics = total e.before.metrics + if counts e then 1 else 0) :
    total (run s inner visits d t).2.metrics =
      total d.metrics + (run s inner visits d t).1.countP counts := by
  -- Induction on the visits, with the desk general: each step leaves the desk that the next finds.
  induction visits generalizing d t with
  | nil => rfl
  | cons v visits ih =>
    have hone := h d t v
    simp only [before_step] at hone
    rw [run_cons, ih, hone, List.countP_cons]
    omega

section Enabled

variable [FullHoldsToken α] (henabled : s.admission.enabled = true)

include henabled

/-- Every step of a run is booked, and finds the table that the first one found. -/
theorem booked_run :
    ∀ e ∈ (run s inner visits d t).1, e.before.gate.table = d.gate.table ∧ Booked s e := by
  induction visits generalizing d t with
  | nil => exact nofun
  | cons v visits ih =>
    have hone := booked_step henabled inner d t v
    have hbefore : (step s inner d t v).1.before = d := before_step d t v
    rw [run_cons, List.forall_mem_cons]
    refine ⟨⟨by rw [hbefore], hone⟩, fun e he => ?_⟩
    obtain ⟨htable, hbooked⟩ := ih e he
    exact ⟨by rw [htable, hone.table, hbefore], hbooked⟩

/-- Every token that is spent is booked, once. -/
theorem admitted_run : (run s inner visits d t).2.metrics.admitted =
    d.metrics.admitted + (run s inner visits d t).1.countP (·.spends s) :=
  total_run Metrics.admitted fun d t v => (booked_step henabled inner d t v).admitted

/-- Every refusal is booked under its route, once. -/
theorem limitedOn_run (route : Route) :
    (run s inner visits d t).2.metrics.limitedOn route.label = d.metrics.limitedOn route.label +
      (run s inner visits d t).1.countP fun e => e.governedBy route && e.refused s :=
  total_run (·.limitedOn route.label) fun d t v =>
    (booked_step henabled inner d t v).limitedOn route

/-- The gauge stays current through every run. -/
theorem current_run (h : d.Current) : (run s inner visits d t).2.Current := by
  induction visits generalizing d t with
  | nil => exact h
  | cons v visits ih =>
    refine ih ((booked_step henabled inner d t v).current ?_)
    rwa [before_step]

/-- The number of buckets is noted from the first admission or sweep on. -/
theorem isSome_buckets_run : (run s inner visits d t).2.metrics.buckets.isSome =
    (d.metrics.buckets.isSome ||
      (run s inner visits d t).1.any fun e => e.spends s || e.isSweep) := by
  induction visits generalizing d t with
  | nil => exact (Bool.or_false _).symm
  | cons v visits ih =>
    have hone := (booked_step henabled inner d t v).buckets
    rw [before_step] at hone
    rw [run_cons, ih, hone, List.any_cons, ← Bool.or_assoc]
    cases (step s inner d t v).1.spends s || (step s inner d t v).1.isSweep <;> simp

end Enabled

end Run

/-- The books balance after every history of requests and sweeps that comes to a fresh desk,
    whatever its table and whatever stands behind the guards. As many requests are counted as
    admitted as took a token out of their bucket, and as many as limited on a route as were refused
    there; these are all the replies with the status 429 on that route, if none comes from behind
    the guards. From the first admission or sweep on, the number of buckets noted is the number of
    buckets. -/
theorem books_balance [FullHoldsToken α] {s : Settings} (henabled : s.admission.enabled = true)
    (inner : Handler τ) (table : Table α) (t : τ) (visits : List Visit) :
    let steps := (run s inner visits (.ofTable table) t).1
    let d := (run s inner visits (.ofTable table) t).2
    (∀ e ∈ steps, e.before.gate.table = table ∧ Booked s e) ∧
    d.metrics.admitted = steps.countP (·.spends s) ∧
    (∀ route : Route, d.metrics.limitedOn route.label =
      steps.countP fun e => e.governedBy route && e.refused s) ∧
    (∀ e ∈ steps, e.refused s = true → e.limited = true) ∧
    ((∀ r t, ∀ p ∈ (inner r t).1, p.status ≠ 429) → ∀ route : Route,
      d.metrics.limitedOn route.label = steps.countP fun e => e.governedBy route && e.limited) ∧
    d.metrics.buckets =
      if steps.any fun e => e.spends s || e.isSweep then some d.gate.size else none := by
  intro steps d
  have hlimited (route : Route) : d.metrics.limitedOn route.label =
      steps.countP fun e => e.governedBy route && e.refused s :=
    (limitedOn_run henabled route).trans (Nat.zero_add _)
  refine ⟨booked_run henabled, (admitted_run henabled).trans (Nat.zero_add _), hlimited,
    forall_mem_run fun d t v => limited_of_refused henabled inner d t v, ?_, ?_⟩
  · intro hinner route
    rw [hlimited]
    -- A handler that gives no 429 of its own leaves the gate as the only source of them.
    refine List.countP_congr fun e he => ?_
    rw [forall_mem_run (P := fun e => e.limited = e.refused s)
      (fun d t v => limited_eq_refused henabled hinner d t v) e he]
  · -- That there is a note and that it is right are two facts about the run.
    have hsome : d.metrics.buckets.isSome = steps.any fun e => e.spends s || e.isSweep :=
      (isSome_buckets_run henabled).trans (Bool.false_or _)
    have hcurrent : d.Current := current_run henabled nofun
    rw [← hsome]
    cases hnoted : d.metrics.buckets with
    | none => rfl
    | some n => rw [hcurrent n hnoted, Option.isSome_some, if_pos rfl]

/-- One sign-in attempt a minute, and no burst. -/
def strictTable : Table Float := ⟨[(⟨.post, "/auth/"⟩, ⟨1, 0⟩)], by simp⟩

/-- A client signs in, is refused when it does so again, asks what it may ask, and comes back after
    a sweep that found its bucket full again. -/
theorem books_balance_sign_in :
    let inner : Handler Unit := fun _ t => (some (.bare 200), t)
    let signIn (now : Nat) : Visit := .request ⟨.post, "/auth/login", [], none, now⟩
    let out := run {} inner [signIn 0, signIn 1000000000,
      .request ⟨.options, "/auth/login", [], none, 2000000000⟩,
      .request ⟨.get, "/status", [], none, 3000000000⟩,
      .sweep 60000000000 61000000000, signIn 62000000000] (.ofTable strictTable) ()
    ({} : Settings).admission.enabled = true ∧ (∀ r t, ∀ p ∈ (inner r t).1, p.status ≠ 429) ∧
      out.1.map (fun e => (e.spends {}, e.limited, e.dropped, e.after.gate.size)) =
        [(true, false, 0, 1), (false, true, 0, 1), (false, false, 0, 1), (false, false, 0, 1),
          (false, false, 1, 0), (true, false, 0, 1)] ∧
      out.2.metrics.admitted = 2 ∧ out.2.metrics.limitedOn "POST /auth/" = 1 ∧
      out.2.metrics.buckets = some 1 := by
  intro inner signIn
  have hinner : ∀ r t, ∀ p ∈ (inner r t).1, p.status ≠ 429 := by
    rintro r t p ⟨⟩
    decide
  obtain ⟨-, hadmitted, -, -, hlimited, hbuckets⟩ :=
    books_balance (s := {}) rfl inner strictTable () [signIn 0, signIn 1000000000,
      .request ⟨.options, "/auth/login", [], none, 2000000000⟩,
      .request ⟨.get, "/status", [], none, 3000000000⟩,
      .sweep 60000000000 61000000000, signIn 62000000000]
  have hlabel : (⟨.post, "/auth/"⟩ : Route).label = "POST /auth/" := by decide
  have hlimited := hlimited hinner ⟨.post, "/auth/"⟩
  rw [hlabel] at hlimited
  refine ⟨rfl, hinner, ?_, hadmitted.trans ?_, hlimited.trans ?_, hbuckets.trans ?_⟩ <;>
    decide +kernel

end Gatehouse.Guard
