import Gatehouse.Admission.Arith
import Gatehouse.Settings.Validation

/-!
# Quotas and the requests they govern

A route is a method together with the beginning of a path. A table gives routes their quotas, and a
request is governed by the first entry that it matches. The table keeps longer beginnings in front
of shorter ones, and entries of one length in the order they were given, so the governing entry is
the most specific one.
-/

namespace Gatehouse.Admission

open Http (Method)

/-- The requests with one method and a path that begins as given. -/
structure Route where
  method : Method
  pathPrefix : String
deriving DecidableEq

namespace Route

/-- Whether a request falls under a route; case matters. -/
def governs (r : Route) (method : Method) (path : String) : Bool :=
  r.method = method && r.pathPrefix.toList.isPrefixOf path.toList

/-- The written form of a route. -/
def label (r : Route) : String := r.method.name ++ " " ++ r.pathPrefix

end Route

/-- A sustained rate and how many requests may exceed it at once. -/
structure Quota (α : Type) where
  perMinute : α
  burst : Nat

namespace Quota

variable {α : Type} [TokenArith α]

/-- The most tokens a bucket holds: the burst, and the one token of the steady rate. -/
def capacity (q : Quota α) : α := TokenArith.ofNat q.burst + TokenArith.ofNat 1

/-- How many tokens arrive in a second. -/
def perSecond (q : Quota α) : α := q.perMinute / TokenArith.ofNat 60

/-- So many requests a minute, and no burst. -/
def perMin (n : Nat) : Quota α := ⟨TokenArith.ofNat n, 0⟩

end Quota

/-- Routes with their quotas, the longest beginnings of paths first. -/
structure Table (α : Type) where
  entries : List (Route × Quota α)
  sorted : entries.Pairwise fun a b => b.1.pathPrefix.utf8ByteSize ≤ a.1.pathPrefix.utf8ByteSize

namespace Table

variable {α : Type}

/-- Whether the first entry may stand in front of the second. -/
def inOrder (a b : Route × Quota α) : Bool :=
  b.1.pathPrefix.utf8ByteSize ≤ a.1.pathPrefix.utf8ByteSize

/-- The table of a list of entries; entries of one length keep their order. -/
def ofList (entries : List (Route × Quota α)) : Table α :=
  ⟨entries.mergeSort inOrder, by
    have h := @List.pairwise_mergeSort _ (inOrder (α := α))
      (fun a b c hab hbc => by simp only [inOrder, decide_eq_true_eq] at *; omega)
      (fun a b => by simp only [inOrder, Bool.or_eq_true, decide_eq_true_eq]; omega) entries
    exact h.imp fun h => by simpa [inOrder] using h⟩

/-- How many entries the table has. -/
def size (t : Table α) : Nat := t.entries.length

/-- The entry that governs a request, if one does. -/
def lookup (t : Table α) (method : Method) (path : String) : Option (Route × Quota α) :=
  t.entries.find? fun e => e.1.governs method path

variable [TokenArith α]

/-- One request a minute, and no burst, on what issues credentials or destroys data. -/
def builtIn : Table α := ofList [
  (⟨.post, "/auth/"⟩, .perMin 1),
  (⟨.put, "/auth/"⟩, .perMin 1),
  (⟨.delete, "/store/"⟩, .perMin 1)]

/-- The entry of a configured quota; nothing if its method is none. -/
def entry? (q : Settings.Quota) : Option (Route × Quota α) :=
  q.method?.map fun m => (⟨m, q.pathPrefix⟩, ⟨TokenArith.ofFloat q.perMinute, q.burst⟩)

/-- The table of the configured quotas, or the built-in one if none is configured. -/
def ofSettings (quotas : List Settings.Quota) : Table α :=
  if quotas.isEmpty then builtIn else ofList (quotas.filterMap entry?)

end Table

end Gatehouse.Admission
