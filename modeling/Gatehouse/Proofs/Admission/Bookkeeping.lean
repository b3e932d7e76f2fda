import Gatehouse.Admission.Metrics
import Gatehouse.Proofs.Admission.FullBucket
import Gatehouse.Proofs.Admission.Life

/-!
# What the desk notes down

The desk counts an admitted request and a rejected one each in its own place, and notes the number
of buckets only after an admission and after a sweep. The note is right all the same whenever there
is one: a bucket that was not there is full when a request makes it, so the request is admitted.

## Key results

- `Gate.check_of_get?_eq_none`: a client that is new on a route is admitted
- `Gate.size_check_of_ne_admitted`: a request that is not admitted adds no bucket
- `Metrics.limitedOn_record`: a rejection is counted under its own route and no other
-/

namespace Gatehouse.Admission

open Http (Method)

variable {α : Type} [TokenArith α]

namespace Verdict

/-- Whether a request was rejected on a route. -/
def rejectedOn (route : Route) : Verdict → Bool
  | rejected route' _ => route' = route
  | _ => false

end Verdict

namespace Gate

variable {g : Gate α}

/-- A sweep says how many buckets it dropped. -/
theorem size_sweep (g : Gate α) (maxIdle now : Nat) :
    (g.sweep maxIdle now).2.size + (g.sweep maxIdle now).1 = g.size := by
  have hle : (g.sweep maxIdle now).2.size ≤ g.size := Dict.size_filter_le g.buckets _
  have hsaid : (g.sweep maxIdle now).1 = g.size - (g.sweep maxIdle now).2.size := rfl
  omega

section Fresh

variable [FullHoldsToken α]

/-- A bucket that is not there yet is full when it comes into being, and holds a token. -/
theorem isSome_take?_bucketAt {route : Route} {client : String}
    (h : g.buckets.get? (route, client) = none) (q : Quota α) (now : Nat) :
    (g.bucketAt route q client now).take?.isSome := by
  rw [bucketAt, h]
  exact FullHoldsToken.isSome_take?_refill_full q now

/-- A client that is new on a route is admitted. -/
theorem check_of_get?_eq_none {client : String} {method : Method} {path : String} {route : Route}
    {q : Quota α} (hlook : g.table.lookup method path = some (route, q))
    (h : g.buckets.get? (route, client) = none) (now : Nat) :
    (g.check client method path now).1 = .admitted := by
  rw [check_eq hlook, Bucket.fst_spend_eq_admitted_iff]
  exact isSome_take?_bucketAt h q now

/-- A request that is not admitted adds no bucket. -/
theorem size_check_of_ne_admitted {client : String} {method : Method} {path : String} {now : Nat}
    (h : (g.check client method path now).1 ≠ .admitted) :
    (g.check client method path now).2.size = g.size := by
  cases hlook : g.table.lookup method path with
  | none => rw [check_of_lookup_none hlook]
  | some e =>
    have hthere : (g.buckets.get? (e.1, client)).isSome := by
      rw [Option.isSome_iff_ne_none]
      exact fun hnone => h (check_of_get?_eq_none hlook hnone now)
    rw [check_eq hlook]
    exact Dict.size_insert_of_isSome hthere _

end Fresh

end Gate

/-! ## The three places -/

namespace Metrics

/-- An admission is counted, and nothing else is. -/
theorem admitted_record (m : Metrics) (v : Verdict) (live : Nat) :
    (m.record v live).admitted = m.admitted + if v = .admitted then 1 else 0 := by
  cases v <;> rfl

/-- The gauge is set when a request is admitted. -/
theorem buckets_record (m : Metrics) (v : Verdict) (live : Nat) :
    (m.record v live).buckets = if v = .admitted then some live else m.buckets := by
  cases v <;> rfl

/-- A rejection is counted under its own route and no other. -/
theorem limitedOn_record (m : Metrics) (v : Verdict) (live : Nat) (route : Route) :
    (m.record v live).limitedOn route.label =
      m.limitedOn route.label + if v.rejectedOn route then 1 else 0 := by
  cases v with
  | unlimited | admitted | unrepresentable route' => rfl
  | rejected route' wait =>
    have hlabel : route.label = route'.label ↔ route' = route :=
      Route.label_injective.eq_iff.trans eq_comm
    simp only [record, limitedOn, SortedMap.get?_insert, Verdict.rejectedOn, hlabel,
      decide_eq_true_eq]
    split
    · next h => rw [h, Option.getD_some]
    · rw [Nat.add_zero]

end Metrics

namespace Desk

/-- The number of buckets is what the desk noted last, if it noted any. -/
def Current (d : Desk α) : Prop := ∀ n ∈ d.metrics.buckets, n = d.gate.size

/-- A desk asks its gate and books what it says. -/
theorem check_eq (d : Desk α) (client : String) (method : Method) (path : String) (now : Nat) :
    d.check client method path now =
      let (v, g) := d.gate.check client method path now
      (v, ⟨g, d.metrics.record v g.size⟩) := rfl

end Desk

end Gatehouse.Admission
