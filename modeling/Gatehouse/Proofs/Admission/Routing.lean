import Gatehouse.Admission.Quota

/-!
# Routes that govern each other

A table finds the governing entry of a request by a scan. A sweep has no request at hand and asks
the table about the route itself, with the beginning of the path as the path. Both scans meet the
same entry: an entry that governs the route governs each of its requests as well, so none of those
in front of the governing entry can.

## Key results

- `Route.governs_trans`: what a route governs is governed by every route that governs that route
- `Route.label_injective`: no two routes are written alike
- `Table.lookup_self`: a route that governs some request governs itself, with the same quota
- `Table.quota_unique`: a route is looked up with one quota only
-/

namespace Gatehouse.Admission

open Http (Method)

namespace Route

/-- A route governs the requests of its method whose path begins with its own. -/
theorem governs_iff (r : Route) (method : Method) (path : String) :
    r.governs method path = true ↔ r.method = method ∧ r.pathPrefix.toList <+: path.toList := by
  simp only [governs, Bool.and_eq_true, decide_eq_true_eq, List.isPrefixOf_iff_prefix]

/-- What begins with a text is this text and a rest. -/
theorem exists_append_of_prefix {s t : String} (h : s.toList <+: t.toList) :
    ∃ rest : String, t = s ++ rest := by
  obtain ⟨rest, hrest⟩ := h
  refine ⟨String.ofList rest, ?_⟩
  rw [← String.toList_inj, String.toList_append, String.toList_ofList, hrest]

/-- A route has at least as long a beginning as every route that governs it. -/
theorem size_le_of_governs {r s : Route} (h : r.governs s.method s.pathPrefix = true) :
    r.pathPrefix.utf8ByteSize ≤ s.pathPrefix.utf8ByteSize := by
  obtain ⟨rest, hrest⟩ := exists_append_of_prefix ((r.governs_iff _ _).1 h).2
  rw [hrest, String.utf8ByteSize_append]
  omega

/-- A route governs the requests whose path is the beginning that it names. -/
theorem governs_self (r : Route) : r.governs r.method r.pathPrefix = true := by
  rw [governs_iff]
  exact ⟨rfl, List.prefix_rfl⟩

/-- What a route governs is governed by every route that governs the route itself. -/
theorem governs_trans {r s : Route} {method : Method} {path : String}
    (hrs : r.governs s.method s.pathPrefix = true) (hs : s.governs method path = true) :
    r.governs method path = true := by
  rw [governs_iff] at hrs hs ⊢
  exact ⟨hrs.1.trans hs.1, hrs.2.trans hs.2⟩

/-- No two routes are written alike: a method has no blank in its name, so the first blank ends
    it. -/
theorem label_injective : Function.Injective Route.label := by
  intro r r' h
  -- No method holds a blank, so it is what stands in front of the first one.
  have htake (r : Route) : r.label.toList.takeWhile Http.isTokenChar = r.method.name.toList := by
    have hname := r.method.isToken_name
    simp only [Http.isToken, Bool.and_eq_true, List.all_eq_true] at hname
    have hlist : r.label.toList = r.method.name.toList ++ ' ' :: r.pathPrefix.toList := by
      simp [label]
    rw [hlist, List.takeWhile_append_of_pos hname.2, List.takeWhile_cons_of_neg (by decide),
      List.append_nil]
  have hname : r.method.name = r'.method.name := by
    rw [← String.toList_inj, ← htake, ← htake, h]
  have hpath : r.pathPrefix = r'.pathPrefix := by
    rw [label, label, hname] at h
    rw [← String.toList_inj]
    simpa using congrArg String.toList h
  obtain ⟨⟨_, _⟩, _⟩ := r
  obtain ⟨⟨_, _⟩, _⟩ := r'
  cases hname
  cases hpath
  rfl

end Route

namespace Table

variable {α : Type}

/-- The entry found by a look-up is the first that governs the request. -/
theorem lookup_eq_some_iff (t : Table α) (method : Method) (path : String) (e : Route × Quota α) :
    t.lookup method path = some e ↔
      e.1.governs method path = true ∧
        ∃ before after, t.entries = before ++ e :: after ∧
          ∀ e' ∈ before, e'.1.governs method path = false := by
  simp only [lookup, List.find?_eq_some_iff_append, Bool.not_eq_eq_eq_not, Bool.not_true]

/-- No entry is found where none governs the request. -/
theorem lookup_eq_none_iff {t : Table α} {method : Method} {path : String} :
    t.lookup method path = none ↔ ∀ e ∈ t.entries, ¬e.1.governs method path = true := by
  unfold lookup
  exact List.find?_eq_none

/-- The entry that is found is one of the table. -/
theorem mem_of_lookup {t : Table α} {method : Method} {path : String} {e : Route × Quota α}
    (h : t.lookup method path = some e) : e ∈ t.entries :=
  List.mem_of_find?_eq_some h

/-- A route that governs some request governs itself, with the same quota. -/
theorem lookup_self {t : Table α} {method : Method} {path : String} {route : Route} {q : Quota α}
    (h : t.lookup method path = some (route, q)) :
    t.lookup route.method route.pathPrefix = some (route, q) := by
  rw [lookup_eq_some_iff] at h ⊢
  obtain ⟨hgov, before, after, hentries, hbefore⟩ := h
  refine ⟨route.governs_self, before, after, hentries, ?_⟩
  intro e' he'
  cases hself : e'.1.governs route.method route.pathPrefix with
  | false => rfl
  | true =>
    -- An entry in front that governs the route would have governed the request too.
    have hgov' := Route.governs_trans hself hgov
    rw [hbefore e' he'] at hgov'
    exact nomatch hgov'

/-- A route is looked up with one quota only, whatever the requests. -/
theorem quota_unique {t : Table α} {method method' : Method} {path path' : String} {route : Route}
    {q q' : Quota α} (h : t.lookup method path = some (route, q))
    (h' : t.lookup method' path' = some (route, q')) : q = q' := by
  have := (lookup_self h).symm.trans (lookup_self h')
  simp only [Option.some.injEq, Prod.mk.injEq, true_and] at this
  exact this

end Table

end Gatehouse.Admission
