import Gatehouse.Proofs.Admission.Routing

/-!
# The most specific entry governs

A table is scanned from the front and the first hit governs, which is only right because of how the
table was sorted. The beginnings of one path are nested, so their lengths in bytes tell them apart:
the first hit has the longest beginning. Entries of one length keep the order of the list, so of the
entries of one route the one listed first is hit.

## Key results

- `filter_mergeSort`: sorting keeps the order of elements that may stand either way
- `Route.eq_of_governs`: routes of one length that govern the same request are one route
- `Table.lookup_ofList_eq_some_iff`: the governing entry is the most specific one
- `most_specific_governs`: which entry governs, and why the order of the list does not matter
-/

namespace Gatehouse.Admission

open Http (Method)

/-- Sorting keeps the order of elements that may stand either way. -/
theorem filter_mergeSort {β : Type} {le : β → β → Bool}
    (htrans : ∀ a b c, le a b = true → le b c = true → le a c = true)
    (htotal : ∀ a b, (le a b || le b a) = true) {p : β → Bool}
    (htie : ∀ a b, p a = true → p b = true → le a b = true) (l : List β) :
    (l.mergeSort le).filter p = l.filter p := by
  have hsorted : (l.filter p).Pairwise fun a b => le a b = true :=
    List.pairwise_of_forall_mem_list fun a ha b hb =>
      htie a b (List.mem_filter.1 ha).2 (List.mem_filter.1 hb).2
  have hsub : (l.filter p).Sublist ((l.mergeSort le).filter p) := by
    have := (List.sublist_mergeSort htrans htotal hsorted List.filter_sublist).filter p
    simpa only [List.filter_filter, Bool.and_self] using this
  exact (hsub.eq_of_length ((List.mergeSort_perm l le).filter p).length_eq.symm).symm

namespace Route

/-- Of two beginnings of one path that have as many bytes, each is the other. -/
theorem eq_of_prefix {s t : String} {path : List Char} (hs : s.toList <+: path)
    (ht : t.toList <+: path) (hsize : s.utf8ByteSize = t.utf8ByteSize) : s = t := by
  have hnested : ∀ {s t : String}, s.toList <+: t.toList → s.utf8ByteSize = t.utf8ByteSize →
      s = t := by
    intro s t hprefix hsize
    obtain ⟨rest, ht⟩ := exists_append_of_prefix hprefix
    -- What follows has no bytes, so nothing follows.
    have hempty : rest = "" := by
      rw [← String.utf8ByteSize_eq_zero_iff]
      rw [ht, String.utf8ByteSize_append] at hsize
      omega
    rw [ht, hempty, String.append_empty]
  rcases List.prefix_or_prefix_of_prefix hs ht with h | h
  · exact hnested h hsize
  · exact (hnested h hsize.symm).symm

/-- Routes of one length that govern the same request are one route. -/
theorem eq_of_governs {r s : Route} {method : Method} {path : String}
    (hr : r.governs method path = true) (hs : s.governs method path = true)
    (hsize : r.pathPrefix.utf8ByteSize = s.pathPrefix.utf8ByteSize) : r = s := by
  rw [governs_iff] at hr hs
  cases r
  cases s
  simp only [mk.injEq]
  exact ⟨hr.1.trans hs.1.symm, eq_of_prefix hr.2 hs.2 hsize⟩

end Route

namespace Table

variable {α : Type} {entries : List (Route × Quota α)} {method : Method} {path : String}
  {e : Route × Quota α}

/-- Entries are in order if the one in front has a beginning that is not shorter. -/
theorem inOrder_iff {a b : Route × Quota α} :
    inOrder a b = true ↔ b.1.pathPrefix.utf8ByteSize ≤ a.1.pathPrefix.utf8ByteSize :=
  decide_eq_true_iff

/-- Sorting neither adds nor drops entries. -/
theorem mem_ofList : e ∈ (ofList entries).entries ↔ e ∈ entries := List.mem_mergeSort

/-- A table is the table of its entries. -/
theorem ofList_entries (t : Table α) : ofList t.entries = t := by
  have hsorted : t.entries.mergeSort inOrder = t.entries := by
    apply List.mergeSort_of_pairwise
    exact t.sorted.imp inOrder_iff.2
  cases t
  simp only [ofList, hsorted]

/-- The entries of one route keep the order of the list. -/
theorem filter_ofList (route : Route) :
    (ofList entries).entries.filter (fun e => e.1 = route) =
      entries.filter fun e => e.1 = route := by
  apply filter_mergeSort
  · intro a b c hab hbc
    rw [inOrder_iff] at *
    omega
  · intro a b
    rw [Bool.or_eq_true, inOrder_iff, inOrder_iff]
    omega
  · intro a b ha hb
    have hroute : a.1 = b.1 := (of_decide_eq_true ha).trans (of_decide_eq_true hb).symm
    exact inOrder_iff.2 (Nat.le_of_eq (by rw [hroute]))

/-- The first entry of a route is the same in the list and in the table. -/
theorem find?_ofList (route : Route) :
    (ofList entries).entries.find? (fun e => e.1 = route) =
      entries.find? fun e => e.1 = route := by
  rw [← List.head?_filter, ← List.head?_filter, filter_ofList]

/-- An entry of a list that governs a request, and the most specific one that does. -/
structure MostSpecific (entries : List (Route × Quota α)) (method : Method) (path : String)
    (e : Route × Quota α) : Prop where
  governs : e.1.governs method path = true
  longest : ∀ e' ∈ entries, e'.1.governs method path = true →
    e'.1.pathPrefix.utf8ByteSize ≤ e.1.pathPrefix.utf8ByteSize
  /-- It is listed, and no entry of the same route is listed in front of it. -/
  first : ∃ before after, entries = before ++ e :: after ∧ ∀ e' ∈ before, e'.1 ≠ e.1

/-- The entry that is found for a route is the first one that it has. -/
theorem find?_eq_some_iff_first :
    entries.find? (fun e' => e'.1 = e.1) = some e ↔
      ∃ before after, entries = before ++ e :: after ∧ ∀ e' ∈ before, e'.1 ≠ e.1 := by
  simp only [List.find?_eq_some_iff_append, decide_true, true_and, Bool.not_eq_eq_eq_not,
    Bool.not_true, decide_eq_false_iff_not, ne_eq]

/-- No two entries are the most specific one. -/
theorem MostSpecific.unique {e' : Route × Quota α} (h : MostSpecific entries method path e)
    (h' : MostSpecific entries method path e') : e = e' := by
  have hfirst := find?_eq_some_iff_first.2 h.first
  have hfirst' := find?_eq_some_iff_first.2 h'.first
  have hroute : e.1 = e'.1 :=
    Route.eq_of_governs h.governs h'.governs
      (Nat.le_antisymm (h'.longest e (List.mem_of_find?_eq_some hfirst) h.governs)
        (h.longest e' (List.mem_of_find?_eq_some hfirst') h'.governs))
  rw [hroute, hfirst'] at hfirst
  exact (Option.some.inj hfirst).symm

/-- What a table finds for a request is the most specific entry. -/
theorem mostSpecific_of_lookup (h : (ofList entries).lookup method path = some e) :
    MostSpecific entries method path e := by
  obtain ⟨hgoverns, before, after, hentries, hbefore⟩ := (lookup_eq_some_iff _ _ _ _).1 h
  refine ⟨hgoverns, ?_, ?_⟩
  · intro e' he' hgoverns'
    have hsorted := (ofList entries).sorted
    rw [hentries] at hsorted
    rw [← mem_ofList, hentries, List.mem_append, List.mem_cons] at he'
    rcases he' with he' | rfl | he'
    · rw [hbefore e' he'] at hgoverns'
      cases hgoverns'
    · exact Nat.le_refl _
    · exact List.rel_of_pairwise_cons (List.pairwise_append.1 hsorted).2.1 he'
  · -- An entry of the route that stood in front of it in the table would govern the request too.
    rw [← find?_eq_some_iff_first, ← find?_ofList, find?_eq_some_iff_first]
    refine ⟨before, after, hentries, fun e' he' hroute => ?_⟩
    rw [← hroute, hbefore e' he'] at hgoverns
    cases hgoverns

/-- A request is not governed if and only if no entry governs it. -/
theorem lookup_ofList_eq_none_iff :
    (ofList entries).lookup method path = none ↔
      ∀ e ∈ entries, ¬e.1.governs method path = true := by
  rw [lookup_eq_none_iff]
  exact forall_congr' fun e => imp_congr_left mem_ofList

/-- The entry that governs a request is the most specific one. -/
theorem lookup_ofList_eq_some_iff :
    (ofList entries).lookup method path = some e ↔ MostSpecific entries method path e := by
  refine ⟨mostSpecific_of_lookup, fun h => ?_⟩
  cases hlook : (ofList entries).lookup method path with
  | none =>
    have he := List.mem_of_find?_eq_some (find?_eq_some_iff_first.2 h.first)
    exact absurd h.governs (lookup_ofList_eq_none_iff.1 hlook e he)
  | some e' => rw [(mostSpecific_of_lookup hlook).unique h]

/-- Lists with the same most specific entry for a request give it the same governing entry. -/
theorem lookup_ofList_congr {entries' : List (Route × Quota α)}
    (h : ∀ e, MostSpecific entries method path e ↔ MostSpecific entries' method path e) :
    (ofList entries).lookup method path = (ofList entries').lookup method path := by
  refine Option.ext fun e => ?_
  rw [lookup_ofList_eq_some_iff, lookup_ofList_eq_some_iff, h]

/-- The most specific entry is one of the entries. -/
theorem MostSpecific.mem (h : MostSpecific entries method path e) : e ∈ entries :=
  List.mem_of_find?_eq_some (find?_eq_some_iff_first.2 h.first)

/-- Where every route is listed once, to be the first of a route is to be listed. -/
theorem first_of_mem (hnodup : (entries.map Prod.fst).Nodup) (h : e ∈ entries) :
    ∃ before after, entries = before ++ e :: after ∧ ∀ e' ∈ before, e'.1 ≠ e.1 := by
  obtain ⟨before, after, rfl⟩ := List.append_of_mem h
  rw [List.map_append, List.nodup_append] at hnodup
  exact ⟨before, after, rfl, fun e' he' =>
    hnodup.2.2 _ (List.mem_map_of_mem he') _ (List.mem_map_of_mem List.mem_cons_self)⟩

/-- Where no route has two entries, the most specific one does not depend on their order. -/
theorem MostSpecific.perm {entries' : List (Route × Quota α)}
    (h : MostSpecific entries method path e) (hperm : entries.Perm entries')
    (hnodup : (entries'.map Prod.fst).Nodup) : MostSpecific entries' method path e where
  governs := h.governs
  longest e' he' := h.longest e' (hperm.mem_iff.2 he')
  first := first_of_mem hnodup (hperm.mem_iff.1 h.mem)

/-- An entry that does not govern a request can be left out of the list. -/
theorem mostSpecific_insert_iff {before after : List (Route × Quota α)} {x : Route × Quota α}
    (hx : ¬x.1.governs method path = true) :
    MostSpecific (before ++ x :: after) method path e ↔
      MostSpecific (before ++ after) method path e := by
  -- The most specific entry governs the request, so it is not of that route.
  have hfind : e.1.governs method path = true →
      (before ++ x :: after).find? (fun e' => e'.1 = e.1) =
        (before ++ after).find? fun e' => e'.1 = e.1 := by
    intro hgoverns
    have hne : ¬x.1 = e.1 := fun heq => hx (heq ▸ hgoverns)
    simp only [List.find?_append, List.find?_cons, hne, decide_false]
  constructor
  · rintro ⟨hgoverns, hlongest, hfirst⟩
    refine ⟨hgoverns, fun e' he' => hlongest e' ?_, ?_⟩
    · simp only [List.mem_append, List.mem_cons] at he' ⊢
      exact he'.imp_right .inr
    · rwa [← find?_eq_some_iff_first, ← hfind hgoverns, find?_eq_some_iff_first]
  · rintro ⟨hgoverns, hlongest, hfirst⟩
    refine ⟨hgoverns, fun e' he' hgoverns' => hlongest e' ?_ hgoverns', ?_⟩
    · simp only [List.mem_append, List.mem_cons] at he' ⊢
      rcases he' with he' | rfl | he'
      · exact .inl he'
      · exact absurd hgoverns' hx
      · exact .inr he'
    · rwa [← find?_eq_some_iff_first, hfind hgoverns, find?_eq_some_iff_first]

end Table

/-- A request is governed by no entry if and only if none is listed with exactly its method and a
    beginning of its path. Otherwise the most specific listed entry governs it: one that matches,
    whose beginning is at least as long in bytes as that of every other one that does, and the first
    listed one of its route. So where every route is listed once the order of the list does not
    matter, and an entry that is added anywhere changes nothing for the requests that it does not
    match. -/
theorem most_specific_governs {α : Type} (entries : List (Route × Quota α)) (method : Method)
    (path : String) :
    ((Table.ofList entries).lookup method path = none ↔
      ¬∃ e ∈ entries, e.1.method = method ∧ e.1.pathPrefix.toList <+: path.toList) ∧
    (∀ e, (Table.ofList entries).lookup method path = some e ↔
      Table.MostSpecific entries method path e) ∧
    (∀ entries', (entries.map Prod.fst).Nodup → entries.Perm entries' →
      (Table.ofList entries').lookup method path = (Table.ofList entries).lookup method path) ∧
    ∀ before after e, entries = before ++ after →
      ¬(e.1.method = method ∧ e.1.pathPrefix.toList <+: path.toList) →
        (Table.ofList (before ++ e :: after)).lookup method path =
          (Table.ofList entries).lookup method path := by
  refine ⟨?_, fun e => Table.lookup_ofList_eq_some_iff, ?_, ?_⟩
  · simp only [Table.lookup_ofList_eq_none_iff, Route.governs_iff, not_exists, not_and]
  · intro entries' hnodup hperm
    have hnodup' : (entries'.map Prod.fst).Nodup := (hperm.map Prod.fst).nodup_iff.1 hnodup
    exact Table.lookup_ofList_congr fun e => ⟨fun h => h.perm hperm.symm hnodup,
      fun h => h.perm hperm hnodup'⟩
  · rintro before after e rfl hforeign
    exact Table.lookup_ofList_congr fun _ =>
      Table.mostSpecific_insert_iff (mt (e.1.governs_iff method path).1 hforeign)

/-- Four nested beginnings, one of them empty and one of another method, are listed in two orders;
    an entry for a longer beginning makes no difference to who signs in. -/
theorem most_specific_governs_nested :
    let general : Route × Quota Nat := (⟨.post, ""⟩, ⟨600, 5⟩)
    let api : Route × Quota Nat := (⟨.post, "/api/"⟩, ⟨100, 0⟩)
    let auth : Route × Quota Nat := (⟨.post, "/api/auth/"⟩, ⟨1, 0⟩)
    let change : Route × Quota Nat := (⟨.put, "/api/auth/login"⟩, ⟨2, 0⟩)
    let admin : Route × Quota Nat := (⟨.post, "/api/auth/admin"⟩, ⟨3, 0⟩)
    let entries := [general, api, auth, change]
    (entries.map Prod.fst).Nodup ∧ entries.Perm [change, auth, api, general] ∧
      (Table.ofList entries).lookup .post "/api/auth/login" = some auth ∧
      (Table.ofList [change, auth, api, general]).lookup .post "/api/auth/login" = some auth ∧
      entries = [general, api] ++ [auth, change] ∧
      ¬(admin.1.method = .post ∧ admin.1.pathPrefix.toList <+: "/api/auth/login".toList) ∧
      (Table.ofList [general, api, admin, auth, change]).lookup .post "/api/auth/login" =
        some auth := by
  intro general api auth change admin entries
  obtain ⟨-, hfinds, hperm, hinsert⟩ :=
    most_specific_governs entries .post "/api/auth/login"
  have hnodup : (entries.map Prod.fst).Nodup := by decide
  have hreverse : entries.Perm [change, auth, api, general] := entries.reverse_perm.symm
  have hforeign : ¬(admin.1.method = .post ∧
      admin.1.pathPrefix.toList <+: "/api/auth/login".toList) := by decide
  have hlook : (Table.ofList entries).lookup .post "/api/auth/login" = some auth :=
    (hfinds auth).2 ⟨by decide, by decide, [general, api], [change], rfl, by decide⟩
  exact ⟨hnodup, hreverse, hlook, (hperm _ hnodup hreverse).trans hlook, rfl, hforeign,
    (hinsert [general, api] [auth, change] admin rfl hforeign).trans hlook⟩

end Gatehouse.Admission
