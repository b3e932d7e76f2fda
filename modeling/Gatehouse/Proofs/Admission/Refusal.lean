import Gatehouse.Proofs.Admission.Levels

/-!
# Requests that cost nothing

A request that is not admitted takes no token, but it does leave a trace: it refills its bucket up
to its own reading, and a bucket that was asked for is not idle, so sweeps keep it longer. Neither
can be told by anybody who comes later, since refilling in two steps is refilling in one, and a
bucket that a sweep takes out refills as if it had been kept. So any of the requests that were not
admitted may be left out of a history, and all others are decided as they were.

## Key results

- `Gate.bucketAt_check_of_refused` / `Gate.alike_check_of_refused`: one such request
- `Gate.bucketAt_after_of_refused`: the bucket that a client finds after any of its own
- `Gate.answers_eq_decisions`: what each event is answered
- `refusals_cost_nothing`: any set of them may be left out
-/

namespace Gatehouse.Admission

open Http (Method)

namespace Bucket

/-- A bucket that does not admit a request stays as it is. -/
theorem spend_of_refused {α : Type} [TokenArith α] {b : Bucket α} {route : Route} {q : Quota α}
    (h : (b.spend route q).1 ≠ .admitted) : (b.spend route q).2 = b := by
  rw [Ne, fst_spend_eq_admitted_iff, Option.not_isSome_iff_eq_none] at h
  rw [snd_spend, h, Option.getD_none]

/-- To be asked for at an earlier reading makes no difference to a bucket, even if it came into
    being then. -/
theorem refill_getD_refill {q : Quota Rat} (hpos : 0 < q.perMinute) (cell : Option (Bucket Rat))
    {s t : Nat} (hst : s ≤ t) :
    ((cell.getD (.full q s)).refill q s).refill q t = (cell.getD (.full q t)).refill q t := by
  cases cell with
  | none =>
    have hfull : q.capacity ≤ (full q s).tokensAt q s := by
      rw [tokensAt_eq]
      simp only [full, Nat.sub_self, span_zero, zero_mul, add_zero, le_refl]
    rw [Option.getD_none, Option.getD_none, refill_full, refill_full,
      refill_eq_of_full hpos (Nat.le_refl s) hst hfull]
  | some b => exact refill_refill b hpos hst

end Bucket

namespace Gate

variable {g g' : Gate Rat} {route : Route} {q : Quota Rat} {client : String} {method : Method}
  {path : String} {now t : Nat}

/-- Gates are alike in both directions. -/
theorem Alike.symm (h : g.Alike now g') : g'.Alike now g :=
  ⟨h.1.symm, fun route q client t hq ht => (h.2 route q client t (h.1 ▸ hq) ht).symm⟩

/-- A client that is not admitted finds later what it would have found without asking. -/
theorem bucketAt_check_of_refused (hlook : g.table.lookup method path = some (route, q))
    (hpos : 0 < q.perMinute) (href : (g.check client method path now).1 ≠ .admitted)
    (hle : now ≤ t) :
    (g.check client method path now).2.bucketAt route q client t =
      g.bucketAt route q client t := by
  rw [check_eq hlook] at href
  rw [bucketAt_check hlook, if_pos rfl, Bucket.spend_of_refused href]
  exact Bucket.refill_getD_refill hpos _ hle

/-- A gate is alike before and after a request that it does not admit. -/
theorem alike_check_of_refused (hpos : ∀ e ∈ g.table.entries, 0 < e.2.perMinute)
    (href : (g.check client method path now).1 ≠ .admitted) :
    Alike now (g.check client method path now).2 g := by
  refine ⟨g.table_check client method path now, ?_⟩
  intro route' q' client' t hq' ht
  rw [table_check] at hq'
  cases hlook : g.table.lookup method path with
  | none => rw [check_of_lookup_none hlook]
  | some e =>
    obtain ⟨route, q⟩ := e
    by_cases hkey : (route', client') = (route, client)
    · obtain ⟨rfl, rfl⟩ := Prod.mk.injEq .. ▸ hkey
      obtain rfl := Table.quota_unique hlook hq'
      exact bucketAt_check_of_refused hlook (hpos _ (Table.mem_of_lookup hlook)) href ht
    · rw [bucketAt_check hlook, if_neg hkey]

/-! ### One event after the other -/

/-- Buckets that were updated by some time were so by any later time. -/
theorem UpTo.mono (h : g.UpTo now) (hle : now ≤ t) : g.UpTo t := fun key b hb =>
  (h key b hb).trans hle

/-- After an event no bucket was updated later than at its reading. -/
theorem UpTo.meet (h : g.UpTo now) {e : Event} (hle : now ≤ e.reading) :
    (g.meet e).UpTo e.reading := by
  cases e with
  | request client method path t => exact h.check hle client method path
  | sweep maxIdle t => exact h.sweep hle maxIdle

/-- No bucket is refilled after the last reading. -/
theorem UpTo.after (h : g.UpTo now) {events : List Event} {last : Nat}
    (hmono : (now :: (events.map Event.reading ++ [last])).Pairwise (· ≤ ·)) :
    (g.after events).UpTo last := by
  induction events generalizing now g with
  | nil => exact h.mono ((List.pairwise_cons.1 hmono).1 _ List.mem_cons_self)
  | cons e events ih =>
    rw [List.map_cons, List.cons_append, List.pairwise_cons] at hmono
    exact ih (h.meet (hmono.1 _ List.mem_cons_self)) hmono.2

/-- As long as a client is not admitted on a route, it finds the bucket there that it would have
    found if nothing had come, whatever comes. -/
theorem bucketAt_after_of_refused
    (hq : g.table.lookup route.method route.pathPrefix = some (route, q)) (hpos : 0 < q.perMinute)
    (hup : g.UpTo now) {events : List Event} {last : Nat}
    (hmono : (now :: (events.map Event.reading ++ [last])).Pairwise (· ≤ ·))
    (href : ∀ d ∈ g.decisions events, d.1.concerns g.table route client = true →
      d.2 ≠ .admitted) :
    (g.after events).bucketAt route q client last = g.bucketAt route q client last := by
  -- By induction on the history; the time of the last update grows with it.
  induction events generalizing now g with
  | nil => rfl
  | cons e events ih =>
    rw [List.map_cons, List.cons_append, List.pairwise_cons] at hmono
    have hle : now ≤ e.reading := hmono.1 _ List.mem_cons_self
    have hlast : e.reading ≤ last := (List.pairwise_cons.1 hmono.2).1 _ (by simp)
    have hq' : (g.meet e).table.lookup route.method route.pathPrefix = some (route, q) := by
      rwa [table_meet]
    rw [after_cons]
    cases e with
    | sweep maxIdle t =>
      rw [ih hq' (hup.meet hle) hmono.2 href]
      exact bucketAt_sweep hq hpos hup hle hlast maxIdle client
    | request c method path t =>
      rw [decisions_request, List.forall_mem_cons] at href
      rw [ih hq' (hup.meet hle) hmono.2 (by rw [table_meet]; exact href.2)]
      -- A refused request of the client leaves its bucket, and those of others do not touch it.
      by_cases hmine : (Event.request c method path t).concerns g.table route client = true
      · obtain ⟨rfl, q', hlook⟩ := Event.concerns_request_iff.1 hmine
        obtain rfl := Table.quota_unique hq hlook
        exact bucketAt_check_of_refused hlook hpos (href.1 hmine) hlast
      · rw [bucketAt, bucketAt, meet, get?_check_of_not_concerns hmine]

/-! ### Histories with requests left out -/

section Answers

variable {α : Type} [TokenArith α]

/-- What the gate decides about an event; nothing about a sweep. -/
def answer (g : Gate α) : Event → Option Verdict
  | .request client method path now => some (g.check client method path now).1
  | .sweep _ _ => none

/-- What the gate decides about each event. -/
def answers (g : Gate α) : List Event → List (Option Verdict)
  | [] => []
  | e :: events => g.answer e :: (g.meet e).answers events

/-- The first event is answered first. -/
@[simp] theorem answers_cons (g : Gate α) (e : Event) (events : List Event) :
    g.answers (e :: events) = g.answer e :: (g.meet e).answers events := rfl

/-- The decisions about the requests are what they are answered. -/
theorem answers_eq_decisions (g : Gate α) (events : List Event) :
    (events.zip (g.answers events)).filterMap (fun a => a.2.map (a.1, ·)) =
      g.decisions events := by
  induction events generalizing g with
  | nil => rfl
  | cons e events ih =>
    cases e with
    | request client method path now =>
      rw [decisions_request, ← ih]
      rfl
    | sweep maxIdle now =>
      rw [decisions_sweep, ← ih]
      rfl

end Answers

/-- Gates that are alike answer an event alike, and are alike after it. -/
theorem alike_meet (hpos : ∀ e ∈ g.table.entries, 0 < e.2.perMinute) (halike : g.Alike now g')
    (hup : g.UpTo now) (hup' : g'.UpTo now) {e : Event} (hle : now ≤ e.reading) :
    g.answer e = g'.answer e ∧ (g.meet e).Alike e.reading (g'.meet e) := by
  cases e with
  | request client method path t =>
    obtain ⟨hverdict, hstay⟩ := halike.check hle client method path
    exact ⟨congrArg some hverdict, hstay⟩
  | sweep maxIdle t =>
    have hstay := (alike_sweep hpos hup hle maxIdle).trans (halike.mono hle)
    exact ⟨rfl, hstay.trans (alike_sweep (halike.1 ▸ hpos) hup' hle maxIdle).symm⟩

/-- A gate is alike before and after an event that is a request and not admitted. -/
theorem alike_meet_of_refused (hpos : ∀ e ∈ g.table.entries, 0 < e.2.perMinute) {e : Event}
    (href : ∃ v, g.answer e = some v ∧ v ≠ .admitted) : (g.meet e).Alike e.reading g := by
  obtain ⟨v, hv, href⟩ := href
  cases e with
  | request client method path t =>
    exact alike_check_of_refused hpos (Option.some.inj hv ▸ href)
  | sweep maxIdle t => cases hv

/-- Of two gates that are alike one may be spared requests that the other does not admit: all other
    events are answered alike. -/
private theorem answers_spared (hpos : ∀ e ∈ g.table.entries, 0 < e.2.perMinute)
    (halike : g.Alike now g') (hup : g.UpTo now) (hup' : g'.UpTo now)
    (history : List (Event × Bool))
    (hmono : (now :: history.map fun m => m.1.reading).Pairwise (· ≤ ·))
    (href : ∀ a ∈ (g.answers (history.map Prod.fst)).zip (history.map Prod.snd), a.2 = false →
      ∃ v, a.1 = some v ∧ v ≠ .admitted) :
    g'.answers ((history.filter Prod.snd).map Prod.fst) =
      (((g.answers (history.map Prod.fst)).zip (history.map Prod.snd)).filter Prod.snd).map
        Prod.fst := by
  -- Induction on the history: whatever comes, both gates stay alike, and no bucket of either is
  -- ahead of the clock.
  induction history generalizing now g g' with
  | nil => rfl
  | cons m history ih =>
    obtain ⟨e, kept⟩ := m
    rw [List.map_cons, List.pairwise_cons] at hmono
    have hle : now ≤ e.reading := hmono.1 _ List.mem_cons_self
    simp only [List.map_cons, answers_cons, List.zip_cons_cons, List.forall_mem_cons] at href ⊢
    have hpos' : ∀ e' ∈ (g.meet e).table.entries, 0 < e'.2.perMinute := by rwa [table_meet]
    cases kept with
    | true =>
      obtain ⟨hanswer, hstay⟩ := alike_meet hpos halike hup hup' hle
      simp only [List.filter_cons, if_true, List.map_cons, answers_cons]
      rw [hanswer, ih hpos' hstay (hup.meet hle) (hup'.meet hle) hmono.2 href.2]
    | false =>
      have hstay := (alike_meet_of_refused hpos (href.1 rfl)).trans (halike.mono hle)
      simp only [List.filter_cons, Bool.false_eq_true, if_false]
      exact ih hpos' hstay (hup.meet hle) (hup'.mono hle) hmono.2 href.2

end Gate

/-- A request that is not admitted costs nothing. Whatever comes to a gate with readings that do not
    go back, any set of requests that were not admitted may be left out (those marked with `false`):
    every other request is answered, to the wait of a refusal, as it was. -/
theorem refusals_cost_nothing (t : Table Rat) (hpos : ∀ e ∈ t.entries, 0 < e.2.perMinute)
    (history : List (Event × Bool))
    (hmono : (history.map fun m => m.1.reading).Pairwise (· ≤ ·)) :
    let answers := (Gate.ofTable t).answers (history.map Prod.fst)
    (∀ a ∈ answers.zip (history.map Prod.snd), a.2 = false →
      ∃ v, a.1 = some v ∧ v ≠ .admitted) →
    (Gate.ofTable t).answers ((history.filter Prod.snd).map Prod.fst) =
      ((answers.zip (history.map Prod.snd)).filter Prod.snd).map Prod.fst :=
  Gate.answers_spared hpos (Gate.Alike.refl 0 _) (Gate.upTo_ofTable 0 t) (Gate.upTo_ofTable 0 t)
    history (List.pairwise_cons.2 ⟨fun _ _ => Nat.zero_le _, hmono⟩)

/-- A client that has spent its burst asks again half a second later. It is refused, and the bucket
    is kept for it by a sweep that would have taken it out otherwise. -/
theorem refusals_cost_nothing_sign_in :
    let signIn (now : Nat) : Event := .request "10.0.0.1" .post "/auth/login" now
    let history : List (Event × Bool) := [
      (signIn 0, true), (signIn 0, true), (signIn 500000000, false),
      (.sweep 2000000000 2000000000, true), (signIn 2000000000, true), (signIn 2000000000, true),
      (signIn 2000000000, true)]
    let refused := some (Verdict.rejected ⟨.post, "/auth/"⟩ 1000000000)
    let answers := (Gate.ofTable signInTable).answers (history.map Prod.fst)
    (∀ e ∈ signInTable.entries, 0 < e.2.perMinute) ∧
      (history.map fun m => m.1.reading).Pairwise (· ≤ ·) ∧
      answers = [some .admitted, some .admitted,
        some (.rejected ⟨.post, "/auth/"⟩ 500000000), none, some .admitted, some .admitted,
        refused] ∧
      ((Gate.ofTable signInTable).after ((history.take 4).map Prod.fst)).size = 1 ∧
      ((Gate.ofTable signInTable).after
        (((history.take 4).filter Prod.snd).map Prod.fst)).size = 0 ∧
      (Gate.ofTable signInTable).answers ((history.filter Prod.snd).map Prod.fst) =
        [some .admitted, some .admitted, none, some .admitted, some .admitted, refused] := by
  intro signIn history refused answers
  have hpos : ∀ e ∈ signInTable.entries, 0 < e.2.perMinute := by simp [signInTable]
  have hmono : (history.map fun m => m.1.reading).Pairwise (· ≤ ·) := by decide
  have hanswers : answers = [some .admitted, some .admitted,
      some (.rejected ⟨.post, "/auth/"⟩ 500000000), none, some .admitted, some .admitted,
      refused] := by decide +kernel
  have href : ∀ a ∈ answers.zip (history.map Prod.snd), a.2 = false →
      ∃ v, a.1 = some v ∧ v ≠ .admitted := by
    rw [hanswers]
    simp [history]
  refine ⟨hpos, hmono, hanswers, by decide +kernel, by decide +kernel, ?_⟩
  refine (refusals_cost_nothing signInTable hpos history hmono href).trans ?_
  rw [show (Gate.ofTable signInTable).answers (history.map Prod.fst) = _ from hanswers]
  rfl

end Gatehouse.Admission
