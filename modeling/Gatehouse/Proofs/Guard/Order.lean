import Gatehouse.Admission.Exact
import Gatehouse.Guard.Line
import Gatehouse.Proofs.Admission.Life
import Gatehouse.Proofs.Guard.Plaintext
import Mathlib.Algebra.Order.Field.Rat

/-!
# The order of the guards

Whatever handler stands behind the guards, a request is answered by the first guard that has an
answer for it, and the guards further in are not asked. What the two outer guards answer leaves no
trace, neither at the desk nor in the handler, so such requests may as well not have come.

The one request that gets no reply at all is one whose bucket is empty for a time that cannot be
expressed.

## Key results

- `around_crossOrigin`, `around_requireTls`, `around_throttle`: what each guard does with a handler
- `answers_first_come`: which guard answers, what it answers, and what changes
-/

namespace Gatehouse

namespace Http

namespace Headers

/-- The values of a field are those in front and then those behind. -/
theorem values_append (hs hs' : Headers) (name : String) :
    (hs ++ hs').values name = hs.values name ++ hs'.values name := by
  simp only [values, List.filter_append, List.map_append]

/-- A field that was taken out has no values, and the others have theirs. -/
theorem values_without (hs : Headers) (n name : String) :
    (hs.without n).values name = if n = name then [] else hs.values name := by
  simp only [values, without, List.filter_filter]
  split
  · next h =>
    subst h
    simp
  · next h =>
    congr 1
    refine List.filter_congr fun f _ => ?_
    by_cases hf : f.name = name
    · simp [hf, Ne.symm h]
    · simp [hf]

/-- A field that is set is the only one of its name, and the others stay. -/
theorem values_set (hs : Headers) (h : Header) (name : String) :
    (hs.set h).values name = if h.name = name then [h.value] else hs.values name := by
  rw [set, add, values_append, values_without]
  by_cases heq : h.name = name
  · simp [values, heq]
  · simp [values, heq]

/-- Fields that are set one by one leave the values of other names. -/
theorem values_foldl_set_of_ne {fields : List Header} {name : String}
    (h : ∀ f ∈ fields, f.name ≠ name) (hs : Headers) :
    (fields.foldl Headers.set hs).values name = hs.values name := by
  induction fields generalizing hs with
  | nil => rfl
  | cons f fields ih =>
    rw [List.foldl_cons, ih fun f' hf' => h f' (List.mem_cons_of_mem f hf'), values_set,
      if_neg (h f List.mem_cons_self)]

end Headers

/-- Requests that come one after the other, and the replies to them. -/
def Handler.serve {σ : Type} (h : Handler σ) : List Request → σ → List (Option Response) × σ
  | [], s => ([], s)
  | r :: rs, s =>
    let (reply, s) := h r s
    let (replies, s) := serve h rs s
    (reply :: replies, s)

/-- No requests get no replies. -/
@[simp] theorem Handler.serve_nil {σ : Type} (h : Handler σ) (s : σ) : h.serve [] s = ([], s) := rfl

/-- The first request is served first, and the others with the state that it leaves. -/
@[simp] theorem Handler.serve_cons {σ : Type} (h : Handler σ) (r : Request) (rs : List Request)
    (s : σ) : h.serve (r :: rs) s =
      ((h r s).1 :: (h.serve rs (h r s).2).1, (h.serve rs (h r s).2).2) := rfl

end Http

namespace Guard

open Admission (Desk TokenArith Verdict)
open Http (Handler Headers Request Response Stage)

variable {α τ σ : Type} [TokenArith α]

/-! ### One guard around a handler -/

/-- A permission leaves the status. -/
@[simp] theorem status_permitted (p : Response) : (permitted p).status = p.status := rfl

/-- A permission leaves the body. -/
@[simp] theorem body_permitted (p : Response) : (permitted p).body = p.body := rfl

/-- The permission leaves the fields that it does not speak of. -/
theorem values_permitted (p : Response) {name : String} (h : ∀ f ∈ permissions, f.name ≠ name) :
    (permitted p).headers.values name = p.headers.values name :=
  Headers.values_foldl_set_of_ne h p.headers

/-- A request for permission is answered at once; every other reply gets the permission on its way
    back. -/
theorem around_crossOrigin (inner : Handler σ) (r : Request) (s : σ) :
    crossOrigin.around inner r s =
      if r.method = .options then (some (permitted (.bare 204)), s)
      else ((inner r s).1.map permitted, (inner r s).2) := by
  simp only [Stage.around, crossOrigin]
  split
  · next h =>
    split at h <;> simp_all
  · next h =>
    split at h <;> simp_all
  · next h =>
    split at h
    · simp at h
    · next hne =>
      simp only [Prod.mk.injEq, Http.Decision.forward.injEq] at h
      obtain ⟨⟨rfl, rfl⟩, rfl⟩ := h
      rw [if_neg hne]
      cases inner r s with
      | mk reply s' => cases reply <;> rfl

/-- A request that came encrypted goes on as it is, and another one is refused. -/
theorem around_requireTls (inner : Handler σ) (r : Request) (s : σ) :
    requireTls.around inner r s =
      if cameEncrypted r = true then inner r s
      else (some (.plain 403 "Insecure connections are not allowed"), s) := by
  simp only [Stage.around, requireTls]
  by_cases h : cameEncrypted r = true
  · simp only [h, if_true, Http.Decision.pass]
    cases inner r s with
    | mk reply s' => cases reply <;> rfl
  · simp only [h, Bool.false_eq_true, if_false]

/-- A request goes on as it is if the desk lets it pass. -/
theorem around_throttle (inner : Handler (Desk α × τ)) (r : Request) (d : Desk α) (t : τ) :
    throttle.around inner r (d, t) =
      match d.check (clientOf r) r.method r.path r.arrival with
      | (.unlimited, d') => inner r (d', t)
      | (.admitted, d') => inner r (d', t)
      | (.rejected _ wait, d') => (some (rejection α wait), (d', t))
      | (.unrepresentable _, d') => (none, (d', t)) := by
  simp only [Stage.around, throttle]
  cases d.check (clientOf r) r.method r.path r.arrival with
  | mk verdict d' =>
    cases verdict with
    | rejected route wait => rfl
    | unrepresentable route => rfl
    | unlimited | admitted =>
      simp only [Http.Decision.pass]
      cases inner r (d', t) with
      | mk reply s' => cases reply <;> rfl

/-! ### The guards in line -/

/-- Whether a request comes in plain where it must not. -/
def InPlain (s : Settings) (r : Request) : Prop :=
  s.server.requireTls = true ∧ s.server.tlsEnabled = false ∧ ¬SaysEncrypted r

/-- Whether a request is one that the guards in front of the desk answer. -/
def AnsweredInFront (s : Settings) (r : Request) : Prop := r.method = .options ∨ InPlain s r

/-- What the desk says to a request, and the desk after it. -/
def asked (d : Desk α) (r : Request) : Verdict × Desk α :=
  d.check (clientOf r) r.method r.path r.arrival

/-- The guards that settings ask for behind the permission. -/
def behindPermission (s : Settings) : Http.Chain (Desk α × τ) :=
  (if refusesPlaintext s then [requireTls] else []) ++
    if s.admission.enabled then [throttle] else []

/-- The permission stands in front of all other stages. -/
theorem line_eq (s : Settings) :
    line s = (crossOrigin :: behindPermission s : Http.Chain (Desk α × τ)) := by
  rw [line, List.append_assoc, List.singleton_append, behindPermission]

/-- Plaintext is refused if encryption is required and not provided here. -/
theorem refusesPlaintext_iff (s : Settings) :
    refusesPlaintext s = true ↔ s.server.requireTls = true ∧ s.server.tlsEnabled = false := by
  simp only [refusesPlaintext, Bool.and_eq_true, Bool.not_eq_true']

/-- A request in plain is refused and leaves no trace. -/
theorem wrap_behindPermission_of_inPlain {s : Settings} (inner : Handler (Desk α × τ))
    {r : Request} (h : InPlain s r) (st : Desk α × τ) :
    (behindPermission s).wrap inner r st =
      (some (.plain 403 "Insecure connections are not allowed"), st) := by
  obtain ⟨htls, hown, hsays⟩ := h
  have hrefuses : refusesPlaintext s = true := (refusesPlaintext_iff s).2 ⟨htls, hown⟩
  have hplain : ¬cameEncrypted r = true := fun h => hsays ((cameEncrypted_iff r).1 h)
  rw [behindPermission, if_pos hrefuses, List.singleton_append, Http.Chain.wrap_cons,
    around_requireTls, if_neg hplain]

/-- A request that may come in as it does comes to the desk, if there is one. -/
theorem wrap_behindPermission_of_not_inPlain {s : Settings} (inner : Handler (Desk α × τ))
    {r : Request} (h : ¬InPlain s r) (st : Desk α × τ) :
    (behindPermission s).wrap inner r st =
      (if s.admission.enabled then throttle.around inner else inner) r st := by
  have hskip : refusesPlaintext s = true → cameEncrypted r = true := by
    intro hrefuses
    obtain ⟨htls, hown⟩ := (refusesPlaintext_iff s).1 hrefuses
    by_cases hsays : SaysEncrypted r
    · exact (cameEncrypted_iff r).2 hsays
    · exact absurd ⟨htls, hown, hsays⟩ h
  -- Behind the refusal of plaintext there is the desk, or nothing.
  have hdesk : Http.Chain.wrap (if s.admission.enabled then [throttle] else []) inner =
      if s.admission.enabled then throttle.around inner else inner := by
    split <;> rfl
  rw [behindPermission]
  by_cases hrefuses : refusesPlaintext s = true
  · rw [if_pos hrefuses, List.singleton_append, Http.Chain.wrap_cons, around_requireTls,
      if_pos (hskip hrefuses), hdesk]
  · rw [if_neg hrefuses, List.nil_append, hdesk]

/-- A request for permission is granted it and leaves no trace. -/
theorem wrap_line_of_options {s : Settings} (inner : Handler (Desk α × τ)) {r : Request}
    (h : r.method = .options) (st : Desk α × τ) :
    (line s).wrap inner r st = (some (permitted (.bare 204)), st) := by
  rw [line_eq, Http.Chain.wrap_cons, around_crossOrigin, if_pos h]

/-- The refusal of plaintext comes with the permission. -/
theorem wrap_line_of_inPlain {s : Settings} (inner : Handler (Desk α × τ)) {r : Request}
    (hne : r.method ≠ .options) (h : InPlain s r) (st : Desk α × τ) :
    (line s).wrap inner r st =
      (some (permitted (.plain 403 "Insecure connections are not allowed")), st) := by
  rw [line_eq, Http.Chain.wrap_cons, around_crossOrigin, if_neg hne,
    wrap_behindPermission_of_inPlain inner h]
  rfl

/-- A request that the outer guards have no answer for comes to the desk, if there is one. -/
theorem wrap_line_of_not_answeredInFront {s : Settings} (inner : Handler (Desk α × τ))
    {r : Request} (h : ¬AnsweredInFront s r) (st : Desk α × τ) :
    (line s).wrap inner r st =
      let inside := if s.admission.enabled then throttle.around inner else inner
      ((inside r st).1.map permitted, (inside r st).2) := by
  have hne : r.method ≠ .options := fun hr => h (.inl hr)
  rw [line_eq, Http.Chain.wrap_cons, around_crossOrigin, if_neg hne,
    wrap_behindPermission_of_not_inPlain inner fun hplain => h (.inr hplain)]

/-- How a request is answered that comes to the guards in some state of the desk and of the handler
    behind them. -/
structure FirstCome (s : Settings) (inner : Handler τ) (d : Desk α) (t : τ) (r : Request) :
    Prop where
  /-- A request for permission is answered whatever else it brings. -/
  preflight : r.method = .options →
    ∃ reply, (line s).wrap (.behind inner) r (d, t) = (some reply, (d, t)) ∧ reply.status = 204
  /-- Any other request is refused if it comes in plain where it must not. -/
  plaintext : r.method ≠ .options → InPlain s r →
    ∃ reply, (line s).wrap (.behind inner) r (d, t) = (some reply, (d, t)) ∧ reply.status = 403
  /-- Then the desk may reject it, and says when to come again. -/
  limited : ¬AnsweredInFront s r → s.admission.enabled = true → ∀ route wait,
    (asked d r).1 = .rejected route wait →
      ∃ reply, (line s).wrap (.behind inner) r (d, t) = (some reply, ((asked d r).2, t)) ∧
        reply.status = 429 ∧
        reply.headers.values "retry-after" = [(toString (retryAfter α wait)).toUTF8.toList]
  /-- Otherwise the handler gets the request as it came, once, and its answer comes back. -/
  inward : ¬AnsweredInFront s r → (s.admission.enabled = true → (asked d r).1.allowed = true) →
    let out := (line s).wrap (.behind inner) r (d, t)
    out.2 = (if s.admission.enabled then (asked d r).2 else d, (inner r t).2) ∧
      out.1.map (fun p => (p.status, p.body)) = (inner r t).1.map fun p => (p.status, p.body)
  /-- There is no answer if the desk gives up. -/
  lost : ¬AnsweredInFront s r → s.admission.enabled = true → ∀ route,
    (asked d r).1 = .unrepresentable route →
      (line s).wrap (.behind inner) r (d, t) = (none, ((asked d r).2, t))
  /-- The desk gives up if and only if the bucket is empty for a time that is no span. -/
  lost_iff : ∀ route, (asked d r).1 = .unrepresentable route ↔
    ∃ q, d.gate.table.lookup r.method r.path = some (route, q) ∧
      (d.gate.bucketAt route q (clientOf r) r.arrival).take? = none ∧
      TokenArith.span? ((d.gate.bucketAt route q (clientOf r) r.arrival).wait q) = none

/-- What the desk makes of a request that comes to it, by what it says. -/
theorem throttle_behind (inner : Handler τ) (r : Request) (d : Desk α) (t : τ) :
    throttle.around (.behind inner) r (d, t) =
      match (asked d r).1 with
      | .unlimited => ((inner r t).1, ((asked d r).2, (inner r t).2))
      | .admitted => ((inner r t).1, ((asked d r).2, (inner r t).2))
      | .rejected _ wait => (some (rejection α wait), ((asked d r).2, t))
      | .unrepresentable _ => (none, ((asked d r).2, t)) := by
  rw [around_throttle, asked]
  cases d.check (clientOf r) r.method r.path r.arrival with
  | mk verdict d' => cases verdict <;> rfl

/-- Every request is answered by the first that has something to say to it. -/
theorem firstCome (s : Settings) (inner : Handler τ) (d : Desk α) (t : τ) (r : Request) :
    FirstCome s inner d t r where
  preflight h := ⟨_, wrap_line_of_options _ h _, rfl⟩
  plaintext hne h := ⟨_, wrap_line_of_inPlain _ hne h _, rfl⟩
  limited h henabled route wait hv := by
    refine ⟨permitted (rejection α wait), ?_, rfl, ?_⟩
    · simp only [wrap_line_of_not_answeredInFront _ h, henabled, if_true, throttle_behind, hv,
        Option.map_some]
    · rw [values_permitted _ (by decide), rejection, Headers.values_set]
      exact if_pos rfl
  inward h hallowed := by
    rw [wrap_line_of_not_answeredInFront _ h]
    -- The handler is reached past the gate, or without one.
    by_cases henabled : s.admission.enabled = true
    · have hv := hallowed henabled
      simp only [henabled, if_true, throttle_behind]
      cases hverdict : (asked d r).1 with
      | unlimited | admitted => simp [Option.map_map, Function.comp_def]
      | rejected route wait => simp [hverdict, Verdict.allowed] at hv
      | unrepresentable route => simp [hverdict, Verdict.allowed] at hv
    · simp [henabled, Handler.behind, Option.map_map, Function.comp_def]
  lost h henabled route hv := by
    simp only [wrap_line_of_not_answeredInFront _ h, henabled, if_true, throttle_behind, hv,
      Option.map_none]
  lost_iff route := d.gate.check_eq_unrepresentable_iff _ _ _ _ _

/-! ### One request after the other -/

/-- What is kept of a list in which everything is marked as kept or not. -/
def kept {β : Type} (marked : List (β × Bool)) : List β := (marked.filter Prod.snd).map Prod.fst

/-- A guarded handler is as it was after a request that is answered in front. -/
theorem state_of_answeredInFront {s : Settings} (inner : Handler τ) {r : Request}
    (h : AnsweredInFront s r) (st : Desk α × τ) :
    ((line s).wrap (.behind inner) r st).2 = st := by
  by_cases hr : r.method = .options
  · rw [wrap_line_of_options _ hr]
  · rw [wrap_line_of_inPlain _ hr (h.resolve_left hr)]

/-- Requests that are answered in front may as well not have come. -/
theorem serve_kept {s : Settings} (inner : Handler τ) (history : List (Request × Bool))
    (h : ∀ m ∈ history, m.2 = false → AnsweredInFront s m.1) (st : Desk α × τ) :
    Handler.serve ((line s).wrap (.behind inner)) (kept history) st =
      let all := Handler.serve ((line s).wrap (.behind inner)) (history.map Prod.fst) st
      (kept (all.1.zip (history.map Prod.snd)), all.2) := by
  -- By induction on the history: a request that is left out leaves the state of what follows.
  induction history generalizing st with
  | nil => rfl
  | cons m history ih =>
    obtain ⟨r, mark⟩ := m
    have ih := ih fun m hm => h m (List.mem_cons_of_mem _ hm)
    cases mark with
    | true =>
      have hkept : kept ((r, true) :: history) = r :: kept history := rfl
      simp only [hkept, Handler.serve_cons, ih, List.map_cons, List.zip_cons_cons]
      rfl
    | false =>
      have hkept : kept ((r, false) :: history) = kept history := rfl
      have hst := state_of_answeredInFront inner (h _ List.mem_cons_self rfl) st
      simp only [hkept, ih, Handler.serve_cons, List.map_cons, List.zip_cons_cons, hst]
      rfl

/-- The guards answer in their order, and what the outer two answer leaves no trace. -/
theorem answers_first_come (s : Settings) (inner : Handler τ) :
    (∀ (d : Desk α) t r, FirstCome s inner d t r) ∧
      ∀ (history : List (Request × Bool)) (st : Desk α × τ),
        (∀ m ∈ history, m.2 = false → AnsweredInFront s m.1) →
        Handler.serve ((line s).wrap (.behind inner)) (kept history) st =
          let all := Handler.serve ((line s).wrap (.behind inner)) (history.map Prod.fst) st
          (kept (all.1.zip (history.map Prod.snd)), all.2) :=
  ⟨firstCome s inner, fun history st h => serve_kept inner history h st⟩

/-- A handler that counts the requests that come to it. -/
def counting : Handler Nat := fun _ n => (some (.bare 200), n + 1)

/-- Requests of one client at one instant: some ask for permission and some come in plain, and of
    both kinds some are left out. Of the others two come to the handler, one is told to come again,
    and the last one gets no reply, because the bucket of its route is empty for longer than can be
    expressed. -/
theorem answers_first_come_mixed :
    let s : Settings := { server := { requireTls := true } }
    let fresh : Desk Rat :=
      .ofTable ⟨[(⟨.post, "/auth/"⟩, ⟨60, 0⟩), (⟨.post, "/slow/"⟩, ⟨1 / 10 ^ 20, 0⟩)], by decide⟩
    let preflight : Request := ⟨.options, "/auth/login", [], none, 0⟩
    let post (path proto : String) : Request :=
      ⟨.post, path, [.ofText "x-forwarded-proto" proto], none, 0⟩
    let history : List (Request × Bool) := [
      (preflight, false), (post "/auth/login" "http", false), (post "/auth/login" "https", true),
      (preflight, true), (post "/auth/login" "HTTPS", true), (preflight, false),
      (post "/slow/" "https", true), (post "/slow/" "http", true), (post "/slow/" "https", true)]
    let h : Handler (Desk Rat × Nat) := (line s).wrap (.behind counting)
    let emptied := (asked fresh (post "/slow/" "https")).2
    (∀ m ∈ history, m.2 = false → AnsweredInFront s m.1) ∧
      (h.serve (kept history) (fresh, 0)).1.map (·.map Response.status) =
        [some 200, some 204, some 429, some 200, some 403, none] ∧
      (h.serve (kept history) (fresh, 0)).2.2 = 2 ∧
      (h (post "/slow/" "https") (emptied, 1)).1 = none := by
  intro s fresh preflight post history h emptied
  have hplain : ∀ path, AnsweredInFront s (post path "http") := by
    intro path
    refine .inr ⟨rfl, rfl, ?_⟩
    rintro ⟨v, hv, hspells⟩
    cases hv
    revert hspells
    decide +kernel
  -- Those that are left out are two requests for permission and one in plain.
  have hmarked : ∀ m ∈ history, m.2 = false → AnsweredInFront s m.1 := by
    have hpreflight : AnsweredInFront s preflight := .inl rfl
    simp [history, hplain, hpreflight]
  obtain ⟨hfirst, hkept⟩ := answers_first_come (α := Rat) s counting
  refine ⟨hmarked, ?_, ?_, ?_⟩
  -- Without those that are left out, the replies are computed.
  · rw [hkept history (fresh, 0) hmarked]
    decide +kernel
  · rw [hkept history (fresh, 0) hmarked]
    decide +kernel
  · -- The bucket is empty, and a token flows in within ten to the twentieth minutes.
    have hspelt : SaysEncrypted (post "/slow/" "https") := ⟨_, rfl, by decide +kernel⟩
    have hfront : ¬AnsweredInFront s (post "/slow/" "https") := by
      rintro (hoptions | hplain)
      · exact absurd hoptions (show Http.Method.post ≠ .options by decide)
      · exact hplain.2.2 hspelt
    have hlost := (hfirst emptied 1 (post "/slow/" "https")).lost hfront rfl ⟨.post, "/slow/"⟩
      (by decide +kernel)
    exact congrArg Prod.fst hlost

end Guard

end Gatehouse
