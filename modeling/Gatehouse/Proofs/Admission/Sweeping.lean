import Gatehouse.Proofs.Admission.Alike
import Gatehouse.Proofs.Admission.ExactBucket

/-!
# Sweeps that nobody notices

A sweep takes out buckets that are full again. As long as the clock does not go back, nobody can
tell a bucket that was taken out from one that was kept: at every later reading both refill to the
capacity. The gate with the sweeps and the gate without them stay alike, so they decide alike.

## Key results

- `Gate.bucketAt_sweep` / `Gate.alike_sweep`: a gate is alike before and after a sweep
- `decisions_eq_of_alike`: gates that are alike decide alike, with the sweeps and without them
- `decisions_filter_isRequest`: sweeping is invisible
-/

namespace Gatehouse.Admission

namespace Gate

/-- No bucket was refilled after a reading. -/
def UpTo (now : Nat) (g : Gate Rat) : Prop :=
  ∀ key b, g.buckets.get? key = some b → b.updated ≤ now

/-- A fresh gate has no buckets, so none was updated too late. -/
theorem upTo_ofTable (now : Nat) (t : Table Rat) : UpTo now (ofTable t) := nofun

/-- A request is not an update of its own: the bucket was refilled before. -/
theorem updated_spend (b : Bucket Rat) (route : Route) (q : Quota Rat) :
    (b.spend route q).2.updated = b.updated := by
  simp only [Bucket.spend, Bucket.take?_eq]
  by_cases h : 1 ≤ b.tokens
  · simp only [if_pos h]
  · simp only [if_neg h]
    cases TokenArith.span? (b.wait q) <;> rfl

/-- A request updates its bucket at its own time. -/
theorem UpTo.check {now t : Nat} {g : Gate Rat} (h : UpTo now g) (hle : now ≤ t) (client : String)
    (method : Http.Method) (path : String) : UpTo t (g.check client method path t).2 := by
  intro key b hb
  rw [get?_check] at hb
  -- Only the bucket of the client on the governing route is changed, if there is one.
  cases hlook : g.table.lookup method path with
  | none =>
    rw [hlook] at hb
    exact (h key b hb).trans hle
  | some e =>
    obtain ⟨route, q⟩ := e
    rw [hlook] at hb
    simp only at hb
    split at hb
    · simp only [Option.some.injEq] at hb
      rw [← hb, updated_spend, bucketAt, Bucket.updated_refill]
      cases hcell : g.buckets.get? (route, client) with
      | none => simp [Bucket.full]
      | some b' =>
        rw [Option.getD_some]
        exact max_le ((h _ b' hcell).trans hle) le_rfl
    · exact (h key b hb).trans hle

/-- A sweep updates no bucket. -/
theorem UpTo.sweep {now t : Nat} {g : Gate Rat} (h : UpTo now g) (hle : now ≤ t) (maxIdle : Nat) :
    UpTo t (g.sweep maxIdle t).2 := by
  intro key b hb
  rw [get?_sweep, Option.filter_eq_some_iff] at hb
  exact (h key b hb.1).trans hle

/-- A bucket that is asked for after a sweep is as it would have been without it: one that was taken
    out was full, so it comes into being again as it would be by then. -/
theorem bucketAt_sweep {now t t' : Nat} {g : Gate Rat} {route : Route} {q : Quota Rat}
    (hq : g.table.lookup route.method route.pathPrefix = some (route, q)) (hpos : 0 < q.perMinute)
    (h : UpTo now g) (hle : now ≤ t) (ht' : t ≤ t') (maxIdle : Nat) (client : String) :
    (g.sweep maxIdle t).2.bucketAt route q client t' = g.bucketAt route q client t' := by
  rw [bucketAt, bucketAt, get?_sweep]
  cases hcell : g.buckets.get? (route, client) with
  | none => rfl
  | some b =>
    rw [Option.filter_some]
    split
    · rfl
    · -- The bucket was taken out, so it was full at the sweep and is so from then on.
      next hstale =>
      simp only [stale, hq, Bucket.idle, Bool.not_eq_eq_eq_not, Bool.not_true,
        Bool.not_eq_false, Bool.and_eq_true, atMost_iff] at hstale
      have hu := (h _ b hcell).trans hle
      rw [Option.getD_none, Option.getD_some, Bucket.refill_full,
        Bucket.refill_eq_of_full hpos hu ht' hstale.2]

/-- A gate is alike before and after a sweep. -/
theorem alike_sweep {now t : Nat} {g : Gate Rat} (hpos : ∀ e ∈ g.table.entries, 0 < e.2.perMinute)
    (h : UpTo now g) (hle : now ≤ t) (maxIdle : Nat) : Alike t (g.sweep maxIdle t).2 g :=
  ⟨rfl, fun _ _ client _ hq ht' =>
    bucketAt_sweep (g := g) hq (hpos _ (Table.mem_of_lookup hq)) h hle ht' maxIdle client⟩

end Gate

/-- Gates that are alike decide alike while the clock does not go back, whether or not the sweeps
    come to the second one. -/
private theorem decisions_eq_of_alike {now : Nat} {g g' : Gate Rat}
    (hpos : ∀ e ∈ g.table.entries, 0 < e.2.perMinute) (halike : g.Alike now g') (hup : g.UpTo now)
    (events : List Event) (hnow : ∀ e ∈ events, now ≤ e.reading)
    (hmono : (events.map Event.reading).Pairwise (· ≤ ·)) :
    g.decisions events = g'.decisions (events.filter Event.isRequest) := by
  -- The reading grows with the events: from the one of each event on the gates stay alike, and no
  -- bucket of the swept gate is ahead of it.
  induction events generalizing now g g' with
  | nil => rfl
  | cons e events ih =>
    have hle : now ≤ e.reading := hnow e List.mem_cons_self
    rw [List.map_cons, List.pairwise_cons] at hmono
    obtain ⟨hfirst, hmono⟩ := hmono
    have hnow' : ∀ e' ∈ events, e.reading ≤ e'.reading :=
      fun e' he' => hfirst _ (List.mem_map_of_mem he')
    cases e with
    | request client method path t =>
      rw [Event.reading] at hle hnow'
      obtain ⟨hverdict, halike'⟩ := halike.check hle client method path
      rw [List.filter_cons_of_pos rfl, Gate.decisions_request, Gate.decisions_request, hverdict,
        ih (by rwa [Gate.table_check]) halike' (hup.check hle client method path)
        hnow' hmono]
    | sweep maxIdle t =>
      rw [Event.reading] at hle hnow'
      rw [List.filter_cons_of_neg (by simp [Event.isRequest]), Gate.decisions_sweep]
      have halike' := (Gate.alike_sweep hpos hup hle maxIdle).trans (halike.mono hle)
      exact ih hpos halike' (hup.sweep hle maxIdle) hnow' hmono

/-- Sweeping is invisible while the clock does not go back: every request is decided, to the wait of
    a refusal, as it would have been without any sweep. -/
theorem decisions_filter_isRequest (t : Table Rat) (hpos : ∀ e ∈ t.entries, 0 < e.2.perMinute)
    (events : List Event) (hmono : (events.map Event.reading).Pairwise (· ≤ ·)) :
    (Gate.ofTable t).decisions events =
      (Gate.ofTable t).decisions (events.filter Event.isRequest) :=
  decisions_eq_of_alike hpos (Gate.Alike.refl 0 _) (Gate.upTo_ofTable 0 t) events
    (fun _ _ => Nat.zero_le _) hmono

/-- The sweep comes two seconds after the first attempt and takes its bucket out. -/
theorem decisions_filter_isRequest_sign_in :
    let events : List Event := [
      .request "10.0.0.1" .post "/auth/login" 1000000000,
      .sweep 1000000000 3000000000,
      .request "10.0.0.1" .post "/auth/login" 3000000000,
      .request "10.0.0.1" .post "/auth/reset" 3000000000,
      .request "10.0.0.1" .post "/auth/login" 3000000000]
    (∀ e ∈ signInTable.entries, 0 < e.2.perMinute) ∧
      (events.map Event.reading).Pairwise (· ≤ ·) ∧
      ((Gate.ofTable signInTable).after (events.take 2)).size = 0 ∧
      ((Gate.ofTable signInTable).decisions events).map Prod.snd =
        [.admitted, .admitted, .admitted, .rejected ⟨.post, "/auth/"⟩ 1000000000] ∧
      (Gate.ofTable signInTable).decisions events =
        (Gate.ofTable signInTable).decisions (events.filter Event.isRequest) := by
  intro events
  have hpos : ∀ e ∈ signInTable.entries, 0 < e.2.perMinute := by
    simp [signInTable]
  have hmono : (events.map Event.reading).Pairwise (· ≤ ·) := by decide
  exact ⟨hpos, hmono, by decide +kernel, by decide +kernel,
    decisions_filter_isRequest signInTable hpos events hmono⟩

end Gatehouse.Admission
