import Gatehouse.Proofs.Admission.Isolation
import Gatehouse.Proofs.Admission.Levels
import Gatehouse.Proofs.Admission.Specificity

/-!
# Requests for a route itself

A gate can be asked about a route instead of a request. It then takes the beginning of the path for
a path, so such a question is a request like any other, and a gate that was asked some is one that
has met requests.

A route of the table governs itself, and every other route that governs it has a shorter beginning,
so the route takes its token from its own bucket. A route that is not in the table is not let pass
on that account: a shorter beginning of the table may govern it, and then it takes a token from the
bucket of that route.

## Key results

- `Gate.draws_check`: a governed request takes a token from one bucket and leaves the others
- `Table.exists_lookup_self`: a route of the table is its own governing entry
- `Gate.allows_of_forall_not_governs`: what no entry governs passes and leaves no trace
- `Gate.always_allows_iff`: a route always passes if and only if no entry governs it
- `allows_by_route`: which bucket a route takes its token from
-/

namespace Gatehouse.Admission

open Http (Method)

/-! ### A route among the entries of a table -/

/-- What governs a route of the table is the route itself: the governing entry has the longest
    beginning, and no other beginning of its length is one of the route's. -/
theorem Table.exists_lookup_self {α : Type} {t : Table α} {route : Route}
    (h : route ∈ t.entries.map Prod.fst) :
    ∃ q, t.lookup route.method route.pathPrefix = some (route, q) := by
  obtain ⟨⟨route, q⟩, hmem, rfl⟩ := List.mem_map.1 h
  cases hlook : t.lookup route.method route.pathPrefix with
  | none => exact absurd route.governs_self (lookup_eq_none_iff.1 hlook _ hmem)
  | some e =>
    have hspecific : MostSpecific t.entries route.method route.pathPrefix e :=
      lookup_ofList_eq_some_iff.1 (by rwa [ofList_entries])
    -- The two have beginnings of one path, and neither is longer.
    have hroute : e.1 = route :=
      Route.eq_of_governs hspecific.governs route.governs_self
        (Nat.le_antisymm (Route.size_le_of_governs hspecific.governs)
          (hspecific.longest _ hmem route.governs_self))
    exact ⟨e.2, by rw [← hroute]⟩

/-! ### Where the token comes from -/

namespace Gate

variable {α : Type} [TokenArith α] {g : Gate α} {route route' : Route} {q : Quota α}
  {client : String} {now : Nat}

/-- Whether an answer of a gate, and the gate that it leaves, come of a token taken from the bucket
    of a client on a route under a quota, or of there being none in it. -/
structure Draws (g : Gate α) (route : Route) (q : Quota α) (client : String) (now : Nat)
    (answer : Verdict × Gate α) : Prop where
  verdict : answer.1 = ((g.bucketAt route q client now).spend route q).1
  /-- The request passes if and only if the refilled bucket holds a token. -/
  allowed : answer.1.allowed = (g.bucketAt route q client now).take?.isSome
  /-- The token is gone from the bucket. -/
  own : answer.2.buckets.get? (route, client) =
    some ((g.bucketAt route q client now).take?.getD (g.bucketAt route q client now))
  others : ∀ key ≠ (route, client), answer.2.buckets.get? key = g.buckets.get? key
  table : answer.2.table = g.table

/-- A request is let through if its bucket has a token. -/
theorem allowed_spend (b : Bucket α) (route : Route) (q : Quota α) :
    (b.spend route q).1.allowed = b.take?.isSome := by
  unfold Bucket.spend
  cases b.take? with
  | some b' => rfl
  | none => cases TokenArith.span? (b.wait q) <;> rfl

/-- An answer is given by what the verdict allows, unless the gate gives up. -/
theorem answer?_eq_some_iff {v : Verdict} {b : Bool} :
    v.answer? = some b ↔ v.allowed = b ∧ ∀ route, v ≠ .unrepresentable route := by
  cases v with
  | unlimited | admitted | rejected => simp [Verdict.answer?]
  | unrepresentable route => simp [Verdict.answer?]

/-- A governed request takes its token from the bucket of its client on the governing route. -/
theorem draws_check {method : Method} {path : String}
    (h : g.table.lookup method path = some (route, q)) (client : String) (now : Nat) :
    g.Draws route q client now (g.check client method path now) where
  verdict := by rw [check_eq h]
  allowed := by rw [check_eq h, allowed_spend]
  own := by rw [check_eq h, Dict.get?_insert_self, Bucket.snd_spend]
  others key hkey := by rw [check_eq h, Dict.get?_insert_ne _ _ hkey]
  table := table_check g client method path now

/-- A route that no entry governs passes, and the gate stays as it is. -/
theorem allows_of_forall_not_governs
    (h : ∀ e ∈ g.table.entries, ¬e.1.governs route.method route.pathPrefix = true)
    (client : String) (now : Nat) : g.allows client route now = (some true, g) := by
  unfold allows
  rw [check_of_lookup_none (Table.lookup_eq_none_iff.2 h)]
  rfl

/-- Every history lets a route pass and leaves the gate as it is if and only if no entry governs the
    route: otherwise there is a bucket for its first request. -/
theorem always_unseen_iff {t : Table α} :
    (∀ events client now, ((ofTable t).after events).allows client route now =
        (some true, (ofTable t).after events)) ↔
      ∀ e ∈ t.entries, ¬e.1.governs route.method route.pathPrefix = true := by
  constructor
  · intro hunseen
    cases hlook : t.lookup route.method route.pathPrefix with
    | none => exact Table.lookup_eq_none_iff.1 hlook
    | some e =>
      have hown := (draws_check (g := ofTable t) hlook "" 0).own
      have hsame : ((ofTable t).check "" route.method route.pathPrefix 0).2 = ofTable t :=
        congrArg Prod.snd (hunseen [] "" 0)
      rw [hsame] at hown
      cases hown
  · intro h events client now
    apply allows_of_forall_not_governs
    rwa [table_after]

/-- A route passes in every history if and only if no entry of the table governs it, whether it is
    in the table or not. -/
theorem always_allows_iff {t : Table Rat} {route : Route} :
    (∀ events client now, (((ofTable t).after events).allows client route now).1 = some true) ↔
      ∀ e ∈ t.entries, ¬e.1.governs route.method route.pathPrefix = true := by
  constructor
  · intro hallows
    cases hlook : t.lookup route.method route.pathPrefix with
    | none => exact Table.lookup_eq_none_iff.1 hlook
    | some e =>
      -- After a burst at one instant the bucket of the governing route is empty.
      obtain ⟨route', q⟩ := e
      let burst := List.replicate (q.burst + 1) (Event.request "" route.method route.pathPrefix 0)
      have hlook' : ((ofTable t).after burst).table.lookup route.method route.pathPrefix =
          some (route', q) := by rwa [table_after]
      obtain ⟨-, hdrained, -⟩ := after_drain (g := ofTable t) hlook rfl 0
      have hallowed := (draws_check hlook' "" 0).allowed
      have hpassed :
          (((ofTable t).after burst).check "" route.method route.pathPrefix 0).1.allowed = true :=
        (answer?_eq_some_iff.1 (hallows burst "" 0)).1
      rw [hpassed, hdrained, Bucket.take?_eq] at hallowed
      norm_num at hallowed
  · intro h events client now
    rw [allows_of_forall_not_governs (by rwa [table_after])]

end Gate

/-- A route of the table takes its token from the bucket of the client on this very route, under the
    quota that all requests governed by it have, and every other bucket stays as it is, those of
    shorter and longer beginnings among them. A route that is not in the table passes and leaves
    every bucket as it is if no entry governs it. If one does, the token comes from the bucket of
    the route of that entry, which is another one: its beginning is one of that of the route. So a
    route that is not in the table always passes unseen if and only if no entry governs it. -/
theorem allows_by_route {α : Type} [TokenArith α] (t : Table α) (route : Route) :
    (∀ events client now,
      let g := (Gate.ofTable t).after events
      let answer := g.check client route.method route.pathPrefix now
      g.allows client route now = (answer.1.answer?, answer.2)) ∧
    (route ∈ t.entries.map Prod.fst →
      ∃ q, t.lookup route.method route.pathPrefix = some (route, q) ∧
        (∀ method path q', t.lookup method path = some (route, q') → q' = q) ∧
        ∀ events client now,
          let g := (Gate.ofTable t).after events
          g.Draws route q client now (g.check client route.method route.pathPrefix now)) ∧
    (route ∉ t.entries.map Prod.fst →
      (t.lookup route.method route.pathPrefix = none → ∀ events client now,
        let g := (Gate.ofTable t).after events
        g.allows client route now = (some true, g)) ∧
      (∀ route' q, t.lookup route.method route.pathPrefix = some (route', q) →
        route' ∈ t.entries.map Prod.fst ∧ route' ≠ route ∧ route'.method = route.method ∧
          route'.pathPrefix.toList <+: route.pathPrefix.toList ∧
          ∀ events client now,
            let g := (Gate.ofTable t).after events
            g.Draws route' q client now (g.check client route.method route.pathPrefix now)) ∧
      ((∀ events client now,
          let g := (Gate.ofTable t).after events
          g.allows client route now = (some true, g)) ↔
        ∀ e ∈ t.entries, ¬e.1.governs route.method route.pathPrefix = true)) := by
  have htable : ∀ events, ((Gate.ofTable t).after events).table = t :=
    fun events => Gate.table_after _ events
  refine ⟨fun events client now => rfl, ?_, ?_⟩
  · intro hlisted
    -- A listed route governs its own beginning, for none in front of it is longer.
    obtain ⟨q, hlook⟩ := Table.exists_lookup_self hlisted
    refine ⟨q, hlook, fun method path q' hlook' => Table.quota_unique hlook' hlook, ?_⟩
    intro events client now g
    exact Gate.draws_check ((htable events).symm ▸ hlook) client now
  · intro hunlisted
    refine ⟨?_, ?_, Gate.always_unseen_iff⟩
    · intro hlook events client now g
      apply Gate.allows_of_forall_not_governs
      exact Table.lookup_eq_none_iff.1 ((htable events).symm ▸ hlook)
    · intro route' q hlook
      -- What governs the beginning of an unlisted route is a shorter one that is listed.
      have hlisted : route' ∈ t.entries.map Prod.fst :=
        List.mem_map_of_mem (Table.mem_of_lookup hlook)
      have hgoverns := ((Table.lookup_eq_some_iff _ _ _ _).1 hlook).1
      obtain ⟨hmethod, hprefix⟩ := (Route.governs_iff _ _ _).1 hgoverns
      refine ⟨hlisted, fun heq => hunlisted (heq ▸ hlisted), hmethod, hprefix, ?_⟩
      intro events client now g
      exact Gate.draws_check ((htable events).symm ▸ hlook) client now

/-- In a table of nested beginnings, one for all and one for administration, to ask about the longer
    one leaves the bucket of the shorter one alone. To sign in is a route of its own that is not in
    the table; it passes once and is refused the second time, for want of a token on the shorter
    one. -/
theorem allows_by_route_nested :
    let auth : Route := ⟨.post, "/auth/"⟩
    let admin : Route := ⟨.post, "/auth/admin/"⟩
    let login : Route := ⟨.post, "/auth/login"⟩
    let health : Route := ⟨.get, "/health"⟩
    let t : Table Rat := ⟨[(admin, ⟨60, 1⟩), (auth, ⟨60, 0⟩)], by decide⟩
    let once := (Gate.ofTable t).after [.request "c" .post "/auth/login" 0]
    admin ∈ t.entries.map Prod.fst ∧ login ∉ t.entries.map Prod.fst ∧
      health ∉ t.entries.map Prod.fst ∧
      t.lookup .post "/auth/login" = some (auth, ⟨60, 0⟩) ∧
      (once.allows "c" admin 0).2.buckets.get? (auth, "c") = once.buckets.get? (auth, "c") ∧
      (once.allows "c" admin 0).1 = some true ∧
      ((Gate.ofTable t).allows "c" login 0).1 = some true ∧
      (once.allows "c" login 0).1 = some false ∧
      once.allows "c" health 0 = (some true, once) := by
  intro auth admin login health t once
  have hadmin : admin ∈ t.entries.map Prod.fst := by decide
  have hlogin : login ∉ t.entries.map Prod.fst := by decide
  have hhealth : health ∉ t.entries.map Prod.fst := by decide
  have hlook : t.lookup .post "/auth/login" = some (auth, ⟨60, 0⟩) :=
    (Table.lookup_eq_some_iff _ _ _ _).2 ⟨by decide, [(admin, ⟨60, 1⟩)], [], rfl, by decide⟩
  obtain ⟨-, hown, -⟩ := allows_by_route t admin
  obtain ⟨-, -, hshorter⟩ := allows_by_route t login
  obtain ⟨-, -, hfree⟩ := allows_by_route t health
  obtain ⟨q, hself, -, hdraws⟩ := hown hadmin
  obtain ⟨-, -, -, -, hforeign⟩ := (hshorter hlogin).2.1 auth _ hlook
  refine ⟨hadmin, hlogin, hhealth, hlook, ?_, ?_, ?_, ?_, ?_⟩
  · have hne : (auth, "c") ≠ (admin, "c") := by decide
    exact (hdraws [.request "c" .post "/auth/login" 0] "c" 0).others _ hne
  · decide +kernel
  · have hverdict := (hforeign [] "c" 0).verdict
    exact (congrArg Verdict.answer? hverdict).trans (by decide +kernel)
  · have hverdict := (hforeign [.request "c" .post "/auth/login" 0] "c" 0).verdict
    exact (congrArg Verdict.answer? hverdict).trans (by decide +kernel)
  · exact (hfree hhealth).1 (by decide +kernel) [.request "c" .post "/auth/login" 0] "c" 0

end Gatehouse.Admission
