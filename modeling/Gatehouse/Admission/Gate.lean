import Gatehouse.Admission.Bucket
import Gatehouse.Dict

/-!
# The admission gate

The gate keeps one bucket for each route and client. A bucket comes into being, full, with the first
request that needs it, and goes when a sweep finds it idle.

* `check`    decides about one request and takes its token
* `allows`   decides about a request on a route itself
* `sweep`    drops the idle buckets and counts them
-/

namespace Gatehouse.Admission

open Http (Method)

/-- What the gate says to a request. -/
inductive Verdict
  /-- No quota governs the request. -/
  | unlimited
  /-- A token was taken. -/
  | admitted
  /-- The bucket is empty for so many nanoseconds. -/
  | rejected (route : Route) (wait : Nat)
  /-- The bucket is empty, and the time until it is not cannot be expressed. -/
  | unrepresentable (route : Route)
deriving DecidableEq

/-- Whether a request may pass. -/
def Verdict.allowed : Verdict → Bool
  | unlimited => true
  | admitted => true
  | rejected _ _ => false
  | unrepresentable _ => false

/-- Whether a request may pass, if that can be said: where the time until there is a token cannot be
    expressed, there is no answer. -/
def Verdict.answer? : Verdict → Option Bool
  | unrepresentable _ => none
  | v => some v.allowed

/-- The quotas and the live buckets. -/
structure Gate (α : Type) where
  table : Table α
  buckets : Dict (Route × String) (Bucket α)

namespace Gate

variable {α : Type}

/-- A gate that nobody has come to. -/
def ofTable (t : Table α) : Gate α := ⟨t, .empty⟩

/-- How many buckets are live. -/
def size (g : Gate α) : Nat := g.buckets.size

variable [TokenArith α]

/-- The bucket that a route and client have at a moment, refilled. -/
def bucketAt (g : Gate α) (route : Route) (q : Quota α) (client : String) (now : Nat) : Bucket α :=
  ((g.buckets.get? (route, client)).getD (.full q now)).refill q now

/-- Takes a token for a request that a route governs, or says how long there will be none. -/
def acquire (g : Gate α) (route : Route) (q : Quota α) (client : String) (now : Nat) :
    Verdict × Gate α :=
  let b := g.bucketAt route q client now
  let keep (b : Bucket α) : Gate α := { g with buckets := g.buckets.insert (route, client) b }
  match b.take? with
  | some b => (.admitted, keep b)
  | none =>
    match TokenArith.span? (b.wait q) with
    | some wait => (.rejected route wait, keep b)
    | none => (.unrepresentable route, keep b)

/-- Decides about a request at a moment. -/
def check (g : Gate α) (client : String) (method : Method) (path : String) (now : Nat) :
    Verdict × Gate α :=
  match g.table.lookup method path with
  | none => (.unlimited, g)
  | some (route, q) => g.acquire route q client now

/-- Decides about a request on a route, with the beginning of the path as its path. -/
def allows (g : Gate α) (client : String) (route : Route) (now : Nat) : Option Bool × Gate α :=
  let (v, g) := g.check client route.method route.pathPrefix now
  (v.answer?, g)

/-- Whether a sweep drops a bucket. -/
def stale (t : Table α) (maxIdle now : Nat) (route : Route) (b : Bucket α) : Bool :=
  match t.lookup route.method route.pathPrefix with
  | some (_, q) => b.idle q maxIdle now
  | none => true

/-- Drops the buckets that have been idle for a while, and says how many they were. -/
def sweep (g : Gate α) (maxIdle now : Nat) : Nat × Gate α :=
  let swept := { g with buckets := g.buckets.filter fun k b => !stale g.table maxIdle now k.1 b }
  (g.size - swept.size, swept)

end Gate

end Gatehouse.Admission
