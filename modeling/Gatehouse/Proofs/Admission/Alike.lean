import Gatehouse.Proofs.Admission.Life

/-!
# Gates that refill alike

Two gates with one table may hold different buckets and still be indistinguishable: a decision
depends on a bucket only once it is refilled. Gates are alike from a reading on if every bucket that
is asked for at that reading or later is the same in both when it is refilled, whether it is there
or comes into being. Gates that are alike decide a request alike and stay alike.

## Key results

- `Gate.bucketAt_check`: what a request does to the refilled buckets
- `Gate.Alike.check`: one request
-/

namespace Gatehouse.Admission

open Http (Method)

namespace Gate

variable {α : Type} [TokenArith α]

/-- From a reading on, every bucket that a request can ask for refills alike. -/
def Alike (now : Nat) (g g' : Gate α) : Prop :=
  g.table = g'.table ∧
    ∀ route q client t, g.table.lookup route.method route.pathPrefix = some (route, q) → now ≤ t →
      g.bucketAt route q client t = g'.bucketAt route q client t

/-- Every gate is like itself. -/
theorem Alike.refl (now : Nat) (g : Gate α) : Alike now g g := ⟨rfl, fun _ _ _ _ _ _ => rfl⟩

/-- Two gates that are like a third one are alike. -/
theorem Alike.trans {now : Nat} {g g' g'' : Gate α} (h : Alike now g g') (h' : Alike now g' g'') :
    Alike now g g'' :=
  ⟨h.1.trans h'.1, fun route q client t hq ht =>
    (h.2 route q client t hq ht).trans (h'.2 route q client t (h.1 ▸ hq) ht)⟩

/-- Gates that are alike from some time on are so from any later time on. -/
theorem Alike.mono {now t : Nat} {g g' : Gate α} (h : Alike now g g') (hle : now ≤ t) :
    Alike t g g' :=
  ⟨h.1, fun route q client t' hq ht' => h.2 route q client t' hq (Nat.le_trans hle ht')⟩

/-- A request that a route governs leaves the bucket of the route and the client as it was spent,
    and the other buckets as they were. -/
theorem bucketAt_check {g : Gate α} {method : Method} {path : String} {route : Route} {q : Quota α}
    (h : g.table.lookup method path = some (route, q)) (client : String) (now : Nat)
    (route' : Route) (q' : Quota α) (client' : String) (t : Nat) :
    (g.check client method path now).2.bucketAt route' q' client' t =
      if (route', client') = (route, client) then
        ((g.bucketAt route q client now).spend route q).2.refill q' t
      else g.bucketAt route' q' client' t := by
  rw [bucketAt, get?_check, h]
  simp only
  split
  · rw [Option.getD_some]
  · rfl

/-- Gates that are alike decide a request alike, and are alike after it. -/
theorem Alike.check {now t : Nat} {g g' : Gate α} (h : Alike now g g') (hle : now ≤ t)
    (client : String) (method : Method) (path : String) :
    (g.check client method path t).1 = (g'.check client method path t).1 ∧
      Alike t (g.check client method path t).2 (g'.check client method path t).2 := by
  cases hlook : g.table.lookup method path with
  | none =>
    have hlook' : g'.table.lookup method path = none := h.1 ▸ hlook
    rw [check_of_lookup_none hlook, check_of_lookup_none hlook']
    exact ⟨rfl, h.mono hle⟩
  | some e =>
    obtain ⟨route, q⟩ := e
    have hlook' : g'.table.lookup method path = some (route, q) := h.1 ▸ hlook
    -- The bucket that is asked for refills alike, so it is spent alike.
    have hbucket := h.2 route q client t (Table.lookup_self hlook) hle
    refine ⟨by rw [check_eq hlook, check_eq hlook', hbucket], ?_, ?_⟩
    · rw [table_check, table_check, h.1]
    · intro route' q' client' t' hq' ht'
      rw [table_check] at hq'
      rw [bucketAt_check hlook, bucketAt_check hlook', hbucket,
        h.2 route' q' client' t' hq' (Nat.le_trans hle ht')]

end Gate

end Gatehouse.Admission
