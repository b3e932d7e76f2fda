import Gatehouse.Admission.Gate
import Gatehouse.SortedMap

/-!
# What the gate tells about its decisions

Admitted requests are counted, rejected ones by the label of their route, and the number of live
buckets is noted after each admission and each sweep. A metric that was never touched has no line.
-/

namespace Gatehouse.Admission

/-- Counts of decisions, and the last note of the number of buckets. -/
structure Metrics where
  admitted : Nat := 0
  limited : SortedMap Nat := .empty
  buckets : Option Nat := none

namespace Metrics

/-- How many requests were rejected under a label. -/
def limitedOn (m : Metrics) (label : String) : Nat := (m.limited.get? label).getD 0

/-- Counts what was decided about a request; `live` is the number of buckets after it. -/
def record (m : Metrics) (v : Verdict) (live : Nat) : Metrics :=
  match v with
  | .unlimited => m
  | .admitted => { m with admitted := m.admitted + 1, buckets := some live }
  | .rejected route _ =>
    { m with limited := m.limited.insert route.label (m.limitedOn route.label + 1) }
  | .unrepresentable _ => m

/-- Notes the number of buckets. -/
def noteBuckets (m : Metrics) (live : Nat) : Metrics := { m with buckets := some live }

/-- The characters of a label value inside quotes. A backslash that stands in front of a backslash
    or a quote escapes it already. -/
def labelChars : List Char → List Char
  | '\\' :: '\\' :: r => '\\' :: '\\' :: labelChars r
  | '\\' :: '"' :: r => '\\' :: '"' :: labelChars r
  | '\\' :: r => '\\' :: '\\' :: labelChars r
  | '"' :: r => '\\' :: '"' :: labelChars r
  | '\n' :: r => '\\' :: 'n' :: labelChars r
  | c :: r => c :: labelChars r
  | [] => []

/-- The line of the count for one label. -/
def limitedLine (label : String) (n : Nat) : String :=
  "keyhold_requests_rate_limited_total\x7broute=\"" ++ String.ofList (labelChars label.toList)
    ++ "\"\x7d " ++ toString n

/-- The lines of all metrics that were touched, in increasing order. -/
def lines (m : Metrics) : List String :=
  let buckets := match m.buckets with
    | some n => ["keyhold_admission_buckets " ++ toString n]
    | none => []
  let admitted :=
    if m.admitted = 0 then [] else ["keyhold_requests_admitted_total " ++ toString m.admitted]
  let limited := m.limited.entries.map fun e => limitedLine e.1 e.2
  buckets ++ admitted ++ limited.mergeSort (· ≤ ·)

end Metrics

/-- A gate that counts its decisions. -/
structure Desk (α : Type) where
  gate : Gate α
  metrics : Metrics := {}

namespace Desk

variable {α : Type}

/-- A gate that nobody has come to. -/
def ofTable (t : Table α) : Desk α := { gate := .ofTable t }

variable [TokenArith α]

/-- Decides about a request and counts the decision. -/
def check (d : Desk α) (client : String) (method : Http.Method) (path : String) (now : Nat) :
    Verdict × Desk α :=
  let (v, g) := d.gate.check client method path now
  (v, ⟨g, d.metrics.record v g.size⟩)

/-- Sweeps the gate and notes how many buckets are left. -/
def sweep (d : Desk α) (maxIdle now : Nat) : Nat × Desk α :=
  let (n, g) := d.gate.sweep maxIdle now
  (n, ⟨g, d.metrics.noteBuckets g.size⟩)

/-- Sweeps at one moment after the other. -/
def sweepEach (d : Desk α) (maxIdle : Nat) (readings : List Nat) : Desk α :=
  readings.foldl (fun d now => (d.sweep maxIdle now).2) d

end Desk

end Gatehouse.Admission
