import Gatehouse.Admission.Quota

/-!
# Token buckets

A bucket fills at the rate of its quota up to the capacity, and a request takes one token out. The
clock of a bucket never moves back: a reading before the last one counts as no time at all.
-/

namespace Gatehouse.Admission

/-- Tokens as they were at a moment. -/
structure Bucket (α : Type) where
  tokens : α
  updated : Nat

namespace Bucket

variable {α : Type} [TokenArith α]

/-- A full bucket. -/
def full (q : Quota α) (now : Nat) : Bucket α := ⟨q.capacity, now⟩

/-- The tokens there are at a moment, if nothing limited them. -/
def tokensAt (b : Bucket α) (q : Quota α) (now : Nat) : α :=
  b.tokens + TokenArith.seconds (now - b.updated) * q.perSecond

/-- The bucket with what has flowed in since. -/
def refill (b : Bucket α) (q : Quota α) (now : Nat) : Bucket α :=
  ⟨TokenArith.lesser (b.tokensAt q now) q.capacity, max b.updated now⟩

/-- Takes one token out of a bucket that has been refilled; nothing if it holds less than one. -/
def take? (b : Bucket α) : Option (Bucket α) :=
  if TokenArith.atMost (TokenArith.ofNat 1) b.tokens then
    some { b with tokens := b.tokens - TokenArith.ofNat 1 }
  else none

/-- The seconds until a refilled bucket holds one token. -/
def wait (b : Bucket α) (q : Quota α) : α := (TokenArith.ofNat 1 - b.tokens) / q.perSecond

/-- Whether nobody has asked for a while and the bucket is full again. -/
def idle (b : Bucket α) (q : Quota α) (maxIdle now : Nat) : Bool :=
  maxIdle ≤ now - b.updated && TokenArith.atMost q.capacity (b.tokensAt q now)

end Bucket

end Gatehouse.Admission
