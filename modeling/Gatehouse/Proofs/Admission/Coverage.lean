import Gatehouse.Admission.Exact
import Gatehouse.Proofs.Admission.Life
import Gatehouse.Proofs.Admission.Specificity
import Gatehouse.Proofs.Settings.Accepted

/-!
# Accepted quotas govern what they name

Settings are checked in one place and the table is built in another. A quota whose method cannot be
read is reported by the check and left out of the table, so the two have to agree on what a method
is: otherwise a route that the settings name would be open to everybody. They do agree, and so the
table of accepted settings has one entry for each quota, and each of the named requests is governed.

## Key results

- `Settings.invalidMethod_mem_problems_iff`: which methods are reported
- `Table.entries_ofSettings_perm`: the table has the entries of the quotas that are not reported
- `Table.exists_lookup_ofSettings`: a request that a quota names is governed by a quota
- `accepted_quotas_govern`: check and table agree, and accepted quotas govern
-/

namespace Gatehouse

open Http (Method)

/-! ### Which methods are reported -/

namespace Settings

/-- A quota is reported under its own index, with the text of its method, if that is none. -/
theorem Quota.invalidMethod_mem_problems_iff {i index : Nat} {m : String} {q : Quota} :
    Problem.invalidMethod i m ∈ q.problems index ↔
      i = index ∧ m = q.method ∧ q.method? = none := by
  have hmethod : Problem.invalidMethod i m ∈
      (if q.method?.isNone then [Problem.invalidMethod index q.method] else []) ↔
        i = index ∧ m = q.method ∧ q.method? = none := by
    cases q.method? <;> simp
  unfold Quota.problems
  rw [List.mem_append, List.mem_append, hmethod]
  -- The other two checks report something else.
  split <;> split <;> simp

/-- The quotas are reported by their places in the list. -/
theorem invalidMethod_mem_quotaProblems_iff {i start : Nat} {m : String} {quotas : List Quota} :
    Problem.invalidMethod i m ∈ quotaProblems start quotas ↔
      ∃ j q, i = start + j ∧ quotas[j]? = some q ∧ q.method = m ∧ q.method? = none := by
  induction quotas generalizing start with
  | nil => simp [quotaProblems]
  | cons q quotas ih =>
    rw [quotaProblems, List.mem_append, Quota.invalidMethod_mem_problems_iff, ih]
    constructor
    · intro h
      rcases h with ⟨hi, hm, hnone⟩ | ⟨j, q', hi, hget, hm, hnone⟩
      · exact ⟨0, q, hi, rfl, hm.symm, hnone⟩
      · exact ⟨j + 1, q', by omega, hget, hm, hnone⟩
    · intro h
      obtain ⟨j, q', hi, hget, hm, hnone⟩ := h
      cases j with
      | zero =>
        obtain rfl : q = q' := by simpa using hget
        exact .inl ⟨hi, hm.symm, hnone⟩
      | succ j => exact .inr ⟨j, q', by omega, hget, hm, hnone⟩

/-- What settings report as no method is the method of a quota, at the index of the quota. -/
theorem invalidMethod_mem_problems_iff {s : Settings} {i : Nat} {m : String} :
    Problem.invalidMethod i m ∈ s.problems ↔
      ∃ q, s.admission.quotas[i]? = some q ∧ q.method = m ∧ q.method? = none := by
  have hmem : Problem.invalidMethod i m ∈ s.problems ↔
      Problem.invalidMethod i m ∈ quotaProblems 0 s.admission.quotas := by
    unfold problems
    rw [List.mem_append, List.mem_append]
    -- What is asked of the sections is no matter of methods.
    split <;> split <;> simp
  rw [hmem, invalidMethod_mem_quotaProblems_iff]
  simp only [Nat.zero_add]
  exact ⟨fun ⟨j, q, hi, h⟩ => ⟨q, hi ▸ h⟩, fun ⟨q, h⟩ => ⟨i, q, rfl, h⟩⟩

end Settings

namespace Admission

/-! ### What the table is made of -/

namespace Table

variable {α : Type} [TokenArith α]

/-- A quota makes no entry if and only if its method is none. -/
theorem entry?_eq_none_iff {q : Settings.Quota} :
    entry? (α := α) q = none ↔ q.method? = none := by
  unfold entry?
  exact Option.map_eq_none_iff

/-- The entry of a quota is for its method in upper case and its beginning of a path. -/
theorem entry?_eq_some_iff {q : Settings.Quota} {e : Route × Quota α} :
    entry? q = some e ↔ e.1.method.name = Text.upper q.method ∧ e.1.pathPrefix = q.pathPrefix ∧
      e.2 = ⟨TokenArith.ofFloat q.perMinute, q.burst⟩ := by
  obtain ⟨⟨m, p⟩, x⟩ := e
  unfold entry? Settings.Quota.method?
  simp only [Option.map_eq_some_iff, Method.ofString?_eq_some_iff, Prod.mk.injEq, Route.mk.injEq]
  constructor
  · intro ⟨m', hname, ⟨hm, hp⟩, hx⟩
    exact ⟨hm ▸ hname, hp.symm, hx.symm⟩
  · intro ⟨hname, hp, hx⟩
    exact ⟨m, hname, ⟨rfl, hp.symm⟩, hx.symm⟩

/-- The built-in table is used only where nothing is configured. -/
theorem ofSettings_of_ne_nil {quotas : List Settings.Quota} (h : quotas ≠ []) :
    (ofSettings quotas : Table α) = ofList (quotas.filterMap entry?) := by
  unfold ofSettings
  rw [List.isEmpty_eq_false_iff.2 h, if_neg Bool.false_ne_true]

/-- The table of the configured quotas has the entries of those that have one, and no others. -/
theorem entries_ofSettings_perm {quotas : List Settings.Quota} (h : quotas ≠ []) :
    ((ofSettings quotas : Table α).entries.map some).Perm
      ((quotas.map entry?).filter Option.isSome) := by
  rw [ofSettings_of_ne_nil h, ← List.map_filterMap_some_eq_filter_map_isSome]
  exact (List.mergeSort_perm _ inOrder).map some

/-- Where every quota is sound none is left out. -/
theorem entries_ofSettings_perm_of_sound {quotas : List Settings.Quota} (h : quotas ≠ [])
    (hsound : ∀ q ∈ quotas, q.Sound) :
    ((ofSettings quotas : Table α).entries.map some).Perm (quotas.map entry?) := by
  have hall : (quotas.map entry?).filter Option.isSome =
      quotas.map (fun q => entry? (α := α) q) := by
    apply List.filter_eq_self.2
    intro e he
    obtain ⟨q, hq, rfl⟩ := List.mem_map.1 he
    have hmethod := (hsound q hq).method
    rw [Option.isSome_iff_ne_none] at hmethod ⊢
    exact mt entry?_eq_none_iff.1 hmethod
  exact hall ▸ entries_ofSettings_perm h

/-- The quotas that have an entry are those that are not reported. -/
theorem filter_map_entry? (s : Settings) :
    (s.admission.quotas.map entry?).filter Option.isSome =
      (s.admission.quotas.zipIdx.filter fun e => .invalidMethod e.2 e.1.method ∉ s.problems).map
        fun e => entry? (α := α) e.1 := by
  conv => lhs; rw [← List.zipIdx_map_fst 0 s.admission.quotas, List.map_map, List.filter_map]
  congr 1
  apply List.filter_congr
  intro e he
  have hget : s.admission.quotas[e.2]? = some e.1 := List.mem_zipIdx_iff_getElem?.1 he
  have hmem : .invalidMethod e.2 e.1.method ∈ s.problems ↔
      entry? (α := α) e.1 = none := by
    rw [Settings.invalidMethod_mem_problems_iff, hget, entry?_eq_none_iff]
    simp
  show Option.isSome ( entry? e.1) = decide (.invalidMethod e.2 e.1.method ∉ s.problems)
  cases hentry : entry? (α := α) e.1 <;> simp [hmem, hentry]

/-- A request that a quota names is governed, and by a quota of its method with a beginning of its
    path that is at least as long. -/
theorem exists_lookup_ofSettings {quotas : List Settings.Quota} {q : Settings.Quota} {m : Method}
    {path : String} (hq : q ∈ quotas) (hname : m.name = Text.upper q.method)
    (hpath : q.pathPrefix.toList <+: path.toList) :
    ∃ q' ∈ quotas, m.name = Text.upper q'.method ∧ q'.pathPrefix.toList <+: path.toList ∧
      q.pathPrefix.utf8ByteSize ≤ q'.pathPrefix.utf8ByteSize ∧
      (ofSettings quotas : Table α).lookup m path =
        some (⟨m, q'.pathPrefix⟩, ⟨TokenArith.ofFloat q'.perMinute, q'.burst⟩) := by
  rw [ofSettings_of_ne_nil (List.ne_nil_of_mem hq)]
  -- The entry of the quota governs the request, so some entry does.
  have hentry : entry? q = some ((⟨m, q.pathPrefix⟩, ⟨TokenArith.ofFloat q.perMinute, q.burst⟩) :
      Route × Quota α) := entry?_eq_some_iff.2 ⟨hname, rfl, rfl⟩
  have hmem := List.mem_filterMap.2 ⟨q, hq, hentry⟩
  have hgoverns : (⟨m, q.pathPrefix⟩ : Route).governs m path = true :=
    (Route.governs_iff _ m path).2 ⟨rfl, hpath⟩
  cases hlook : (ofList (quotas.filterMap entry?) : Table α).lookup m path with
  | none => exact absurd hgoverns (lookup_ofList_eq_none_iff.1 hlook _ hmem)
  | some e =>
    obtain ⟨⟨m', p⟩, x⟩ := e
    have hspecific := lookup_ofList_eq_some_iff.1 hlook
    obtain ⟨q', hq', hentry'⟩ := List.mem_filterMap.1 hspecific.mem
    obtain ⟨hname', hp, hx⟩ := entry?_eq_some_iff.1 hentry'
    obtain ⟨hm, hpath'⟩ := (Route.governs_iff _ m path).1 hspecific.governs
    have hlongest := hspecific.longest _ hmem hgoverns
    dsimp only at hname' hp hx hm hpath' hlongest
    subst hm hp hx
    exact ⟨q', hq', hname', hpath', hlongest, rfl⟩

end Table

/-- A request with a quota is not let through as one without. -/
theorem Gate.check_ne_unlimited {α : Type} [TokenArith α] {g : Gate α} {m : Method} {path : String}
    {e : Route × Quota α} (h : g.table.lookup m path = some e) (client : String) (now : Nat) :
    (g.check client m path now).1 ≠ .unlimited := by
  obtain ⟨route, q⟩ := e
  rw [check_eq h]
  unfold Bucket.spend
  cases (g.bucketAt route q client now).take? with
  | some b => exact nofun
  | none => cases TokenArith.span? ((g.bucketAt route q client now).wait q) <;> exact nofun

/-- A quota is left out of the table if and only if its method is reported, under its index; the
    table of configured quotas has one entry for each of the others, and the built-in entries are
    not used. So if the settings are accepted no quota is left out, and a request whose method and
    path a quota names is governed by a quota of its method with a beginning of the path that is at
    least as long: it is never let through as one without a quota. -/
theorem accepted_quotas_govern {α : Type} [TokenArith α] (s : Settings) :
    let quotas := s.admission.quotas
    let t : Table α := Table.ofSettings quotas
    (∀ i m, Settings.Problem.invalidMethod i m ∈ s.problems ↔
      ∃ q, quotas[i]? = some q ∧ q.method = m ∧ Table.entry? (α := α) q = none) ∧
    (quotas ≠ [] → (t.entries.map some).Perm
      ((quotas.zipIdx.filter fun e => .invalidMethod e.2 e.1.method ∉ s.problems).map
        fun e => Table.entry? e.1)) ∧
    (s.valid = true → quotas ≠ [] →
      t.size = quotas.length ∧ (t.entries.map some).Perm (quotas.map Table.entry?) ∧
      ∀ q ∈ quotas, ∀ m path, m.name = Text.upper q.method →
        q.pathPrefix.toList <+: path.toList →
        (∃ q' ∈ quotas, m.name = Text.upper q'.method ∧ q'.pathPrefix.toList <+: path.toList ∧
          q.pathPrefix.utf8ByteSize ≤ q'.pathPrefix.utf8ByteSize ∧
          t.lookup m path =
            some (⟨m, q'.pathPrefix⟩, ⟨TokenArith.ofFloat q'.perMinute, q'.burst⟩)) ∧
        ∀ (g : Gate α) client now, g.table = t → (g.check client m path now).1 ≠ .unlimited) := by
  intro quotas t
  have hreported : ∀ i m, Settings.Problem.invalidMethod i m ∈ s.problems ↔
      ∃ q, quotas[i]? = some q ∧ q.method = m ∧ Table.entry? (α := α) q = none := by
    intro i m
    simp only [Settings.invalidMethod_mem_problems_iff, Table.entry?_eq_none_iff]
    rfl
  refine ⟨hreported, ?_, ?_⟩
  · intro hne
    rw [← Table.filter_map_entry? s]
    exact Table.entries_ofSettings_perm hne
  · intro hvalid hne
    -- Every quota of accepted settings has a method, so none is dropped.
    obtain ⟨-, hsound, -⟩ := (Settings.valid_iff s).1 hvalid
    have hperm : (t.entries.map some).Perm (quotas.map Table.entry?) :=
      Table.entries_ofSettings_perm_of_sound hne hsound
    refine ⟨by simpa [Table.size] using hperm.length_eq, hperm, ?_⟩
    intro q hq m path hname hpath
    have hgoverned : ∃ q' ∈ quotas, m.name = Text.upper q'.method ∧
        q'.pathPrefix.toList <+: path.toList ∧
        q.pathPrefix.utf8ByteSize ≤ q'.pathPrefix.utf8ByteSize ∧
        t.lookup m path =
          some (⟨m, q'.pathPrefix⟩, ⟨TokenArith.ofFloat q'.perMinute, q'.burst⟩) :=
      Table.exists_lookup_ofSettings hq hname hpath
    refine ⟨hgoverned, ?_⟩
    intro g client now hg
    obtain ⟨q', -, -, -, -, hlook⟩ := hgoverned
    exact Gate.check_ne_unlimited (hg ▸ hlook) client now

/-- Two quotas of one method are written in mixed case, one for a longer beginning, which governs
    who signs in there; a method with a blank is reported under its index. -/
theorem accepted_quotas_govern_sign_in :
    let s : Settings := { admission := { quotas := [⟨"post", "/auth/", 60, 0⟩,
      ⟨"poſt", "/auth/admin/", 1, 0⟩, ⟨"Delete", "/store/", 1, 0⟩] } }
    let s' : Settings := { admission := { quotas := [⟨"post", "/auth/", 60, 0⟩,
      ⟨"p ost", "/auth/admin/", 1, 0⟩] } }
    let t : Table Rat := Table.ofSettings s.admission.quotas
    s.valid = true ∧ t.size = 3 ∧
      (∃ x, t.lookup .post "/auth/admin/login" = some (⟨.post, "/auth/admin/"⟩, x)) ∧
      (((Gate.ofTable t).check "10.0.0.1" .post "/auth/admin/login" 0).1 ≠ .unlimited) ∧
      .invalidMethod 1 "p ost" ∈ s'.problems := by
  intro s s' t
  have hvalid : s.valid = true := by decide +kernel
  obtain ⟨-, -, hgovern⟩ := accepted_quotas_govern (α := Rat) s
  obtain ⟨hreported, -, -⟩ := accepted_quotas_govern (α := Rat) s'
  obtain ⟨hsize, -, hnamed⟩ := hgovern hvalid (List.cons_ne_nil _ _)
  have hname : Method.post.name = Text.upper "poſt" := by decide +kernel
  obtain ⟨⟨q', hq', -, -, hlong, hlook⟩, hchecked⟩ :=
    hnamed ⟨"poſt", "/auth/admin/", 1, 0⟩ (by simp [s]) .post "/auth/admin/login" hname (by decide)
  refine ⟨hvalid, hsize, ?_, hchecked (Gate.ofTable t) _ _ rfl, ?_⟩
  · -- The other two beginnings are shorter.
    simp only [s, List.mem_cons, List.not_mem_nil, or_false] at hq'
    rcases hq' with rfl | rfl | rfl
    · exact absurd hlong (by decide)
    · exact ⟨_, hlook⟩
    · exact absurd hlong (by decide)
  · rw [hreported]
    refine ⟨⟨"p ost", "/auth/admin/", 1, 0⟩, rfl, rfl, ?_⟩
    rw [Table.entry?_eq_none_iff]
    decide +kernel

end Admission

end Gatehouse
