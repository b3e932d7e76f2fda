import Gatehouse.Settings.Validation

/-!
# What accepted settings are like

Settings are accepted if nothing is wrong with them. Each problem stands for one condition, so the
accepted settings are those that meet all conditions, and nothing else is asked of them.

## Key results

- `Quota.problems_eq_nil_iff`: nothing is wrong with a quota that is sound
- `valid_iff`: the conditions under which settings are accepted
-/

namespace Gatehouse.Settings

/-- What is asked of a quota. -/
structure Quota.Sound (q : Quota) : Prop where
  method : q.method?.isSome
  pathPrefix : q.pathPrefix.toList.head? = some '/'
  perMinute : Decimal.isPositive q.perMinute = true

/-- A check that reports its problem if and only if its condition fails. -/
private theorem ite_nil_eq_nil_iff {p : Prop} [Decidable p] (problem : Problem) :
    (if p then [] else [problem]) = [] ↔ p := by
  split
  · next h => exact iff_of_true rfl h
  · next h => exact iff_of_false (List.cons_ne_nil _ _) h

/-- Nothing is wrong with a quota if and only if it is sound, whatever its index. -/
theorem Quota.problems_eq_nil_iff (index : Nat) (q : Quota) :
    q.problems index = [] ↔ q.Sound := by
  have hmethod : (if q.method?.isNone then [Problem.invalidMethod index q.method] else []) = [] ↔
      q.method?.isSome := by
    cases q.method? <;> simp
  rw [Quota.problems, List.append_eq_nil_iff, List.append_eq_nil_iff, hmethod,
    ite_nil_eq_nil_iff, ite_nil_eq_nil_iff]
  exact ⟨fun ⟨⟨h, h'⟩, h''⟩ => ⟨h, h', h''⟩, fun ⟨h, h', h''⟩ => ⟨⟨h, h'⟩, h''⟩⟩

/-- Quotas are accepted if and only if each of them is sound. -/
theorem quotaProblems_eq_nil_iff (index : Nat) (quotas : List Quota) :
    quotaProblems index quotas = [] ↔ ∀ q ∈ quotas, q.Sound := by
  induction quotas generalizing index with
  | nil => exact iff_of_true rfl nofun
  | cons q quotas ih =>
    rw [quotaProblems, List.append_eq_nil_iff, Quota.problems_eq_nil_iff, ih, List.forall_mem_cons]

/-- Settings are accepted if certificate and key are set together, every quota is sound and the
    sweeper rests. -/
theorem valid_iff (s : Settings) :
    s.valid = true ↔
      s.server.tlsCert.isEmpty = s.server.tlsKey.isEmpty ∧
        (∀ q ∈ s.admission.quotas, q.Sound) ∧ s.admission.sweepIntervalSecs ≠ 0 := by
  have htls : (if s.server.tlsCert.isEmpty != s.server.tlsKey.isEmpty then [Problem.partialTls]
      else []) = [] ↔ s.server.tlsCert.isEmpty = s.server.tlsKey.isEmpty := by
    cases s.server.tlsCert.isEmpty <;> cases s.server.tlsKey.isEmpty <;> simp
  have hsweep : (if s.admission.sweepIntervalSecs = 0 then [Problem.zeroSweepInterval] else []) =
      [] ↔ s.admission.sweepIntervalSecs ≠ 0 := by
    simp
  rw [valid, List.isEmpty_iff, problems, List.append_eq_nil_iff, List.append_eq_nil_iff, htls,
    quotaProblems_eq_nil_iff, hsweep, and_assoc]

end Gatehouse.Settings
