import Gatehouse.Admission.Exact
import Gatehouse.Proofs.Guard.Order

/-!
# Permission on every reply

The stage that grants permission stands in front of all others, so every reply passes it on the way
out. It makes each of its fields the only one of its name and leaves all other fields where they
are, whoever answered and whatever fields the answer brought.

## Key results

- `values_foldl_set` / `filter_foldl_set`: what setting fields one by one does to the fields of
  their names, and to all others
- `permits_permitted`: how a reply with the permission stands to the one without it
- `Chain.fst_wrap`: the reply of stages that leave replies alone is that of the layer that answers
- `values_deliver`: delivery leaves the fields of a reply
- `every_reply_permits`: the reply of every chain with the permission in front
-/

namespace Gatehouse

namespace Http

/-! ## The layer that answers -/

section Answer

variable {σ : Type}

/-- Whether a stage leaves the replies that come from further in as they are. -/
def Stage.LeavesReplies (t : Stage σ) : Prop :=
  ∀ r s r' amend s', t.decide r s = (.forward r' amend, s') → ∀ p s'', (amend p s'').1 = p

/-- What the layer says that answers a request: the first stage that does not forward it, or else
    the handler inside. -/
def Chain.answer (inner : Handler σ) : Chain σ → Request → σ → Option Response
  | [], r, s => (inner r s).1
  | t :: c, r, s =>
    match t.decide r s with
    | (.reply p, _) => some p
    | (.abort, _) => none
    | (.forward r _, s) => answer inner c r s

/-- The reply of stages that leave replies alone is that of the layer that answers. -/
theorem Chain.fst_wrap (c : Chain σ) (h : ∀ t ∈ c, t.LeavesReplies) (inner : Handler σ)
    (r : Request) (s : σ) : (c.wrap inner r s).1 = c.answer inner r s := by
  -- Induction on the stages: the first one answers, or leaves the reply that comes back.
  induction c generalizing r s with
  | nil => rfl
  | cons t c ih =>
    have ih := ih fun t' ht' => h t' (List.mem_cons_of_mem t ht')
    rw [wrap_cons, Stage.around, answer]
    cases hdecide : t.decide r s with
    | mk decision s' =>
      cases decision with
      | reply p => rfl
      | abort => rfl
      | forward r' amend =>
        have hamend := h t List.mem_cons_self r s r' amend s' hdecide
        dsimp only
        rw [← ih r' s']
        cases Chain.wrap c inner r' s' with
        | mk reply s'' =>
          cases reply with
          | none => rfl
          | some p => exact congrArg some (hamend p s'')

end Answer

/-! ## Delivery -/

/-- A field that is offered leaves those of other names, and gives way to one of its own name. -/
theorem Headers.values_offer {hs : Headers} {h : Header} {name : String}
    (hname : hs.has name = true ∨ h.name ≠ name) : (hs.offer h).values name = hs.values name := by
  rw [offer]
  split
  · rfl
  · next hnone =>
    have hne : h.name ≠ name := by
      rcases hname with hhas | hne
      · rintro rfl
        exact hnone hhas
      · exact hne
    rw [add, values_append]
    simp only [values, List.filter_cons, hne, decide_false, Bool.false_eq_true, if_false,
      List.filter_nil, List.map_nil, List.append_nil]

/-- A field that is offered takes no other away. -/
theorem Headers.has_offer {hs : Headers} {name : String} (h : hs.has name = true) (f : Header) :
    (hs.offer f).has name = true := by
  rw [offer]
  split
  · exact h
  · rw [add, has, List.any_append, Bool.or_eq_true]
    exact .inl h

/-- Delivery adds what the reply does not have, and leaves the values of what it has. -/
theorem Response.values_deliver (p : Response) (method : Method) (allowed : Option String)
    {name : String}
    (h : p.headers.has name = true ∨ name ∉ ["allow", "content-length"]) :
    (p.deliver method allowed).headers.values name = p.headers.values name := by
  have hallow : p.headers.has name = true ∨ "allow" ≠ name :=
    h.imp_right fun hname heq => hname (heq ▸ by decide)
  unfold deliver
  split
  · rfl
  · -- The length is offered behind what else was offered.
    have hlength : ∀ hs : Headers, (p.headers.has name = true → hs.has name = true) →
        hs.has name = true ∨ "content-length" ≠ name := fun hs hhas =>
      h.imp hhas fun hname heq => hname (heq ▸ by decide)
    cases allowed with
    | none => exact Headers.values_offer (hlength p.headers id)
    | some methods =>
      exact (Headers.values_offer (hlength _ fun hhas => Headers.has_offer hhas _)).trans
        (Headers.values_offer hallow)

/-- An answer is delivered with its status. -/
theorem Response.status_deliver (p : Response) (method : Method) (allowed : Option String) :
    (p.deliver method allowed).status = p.status := by
  unfold deliver
  split <;> rfl

end Http

namespace Guard

open Admission (Desk TokenArith Verdict)
open Http (Chain Handler Header Headers Request Response Stage)

variable {α τ σ : Type} [TokenArith α]

/-! ## Fields that are set one by one -/

/-- Of fields with different names that are set one by one, each is the only one of its name. -/
theorem values_foldl_set {fields : List Header} (h : (fields.map Header.name).Nodup) (hs : Headers)
    {f : Header} (hf : f ∈ fields) : (fields.foldl Headers.set hs).values f.name = [f.value] := by
  induction fields generalizing hs with
  | nil => exact nomatch hf
  | cons g fields ih =>
    obtain ⟨hg, h⟩ := List.nodup_cons.1 h
    rw [List.foldl_cons]
    rcases List.mem_cons.1 hf with rfl | hf
    · -- The fields that are set later have other names.
      have hlater : ∀ f' ∈ fields, f'.name ≠ f.name := fun f' hf' heq =>
        hg (heq ▸ List.mem_map_of_mem hf')
      rw [Headers.values_foldl_set_of_ne hlater, Headers.values_set, if_pos rfl]
    · exact ih h (hs.set g) hf

/-- Fields that are set one by one leave those of all other names, in their order. -/
theorem filter_foldl_set {P : Header → Bool} {fields : List Header}
    (h : ∀ f ∈ fields, ∀ f' : Header, f'.name = f.name → P f' = false) (hs : Headers) :
    (fields.foldl Headers.set hs).filter P = hs.filter P := by
  induction fields generalizing hs with
  | nil => rfl
  | cons f fields ih =>
    obtain ⟨hf, h⟩ := List.forall_mem_cons.1 h
    rw [List.foldl_cons, ih h, Headers.set, Headers.add, List.filter_append, Headers.without,
      List.filter_filter, List.filter_cons_of_neg (by rw [hf f rfl]; exact Bool.false_ne_true),
      List.filter_nil, List.append_nil]
    -- What the first field took out is not looked at.
    refine List.filter_congr fun f' _ => ?_
    by_cases hname : f'.name = f.name
    · rw [hf f' hname, Bool.false_and]
    · rw [decide_eq_true hname, Bool.and_true]

/-! ## Replies with the permission -/

/-- Whether the permission speaks of a name. -/
def IsPermission (name : String) : Prop :=
  name = "access-control-allow-origin" ∨ name = "access-control-allow-methods" ∨
    name = "access-control-allow-headers"

instance (name : String) : Decidable (IsPermission name) := inferInstanceAs (Decidable (_ ∨ _))

/-- The fields of the permission are those of the names that it speaks of. -/
theorem isPermission_iff (name : String) :
    IsPermission name ↔ ∃ f ∈ permissions, f.name = name := by
  simp [IsPermission, permissions, Header.ofText, eq_comm]

/-- How a reply stands to an answer that it grants permission with. -/
structure Permits (answer reply : Response) : Prop where
  status : reply.status = answer.status
  body : reply.body = answer.body
  /-- Every origin has the permission, told once. -/
  origin : reply.headers.values "access-control-allow-origin" = ["*".toUTF8.toList]
  /-- The methods that are permitted, told once. -/
  methods : reply.headers.values "access-control-allow-methods" =
    ["GET, POST, PUT, DELETE, OPTIONS".toUTF8.toList]
  /-- The names of fields that are permitted, told once. -/
  headers : reply.headers.values "access-control-allow-headers" =
    ["Origin, X-Requested-With, Content-Type, Accept, Authorization, X-Request-Id".toUTF8.toList]
  /-- Every other name has its values, in their order. -/
  values : ∀ name, ¬IsPermission name → reply.headers.values name = answer.headers.values name
  /-- The fields of all other names stand in their order. -/
  fields : (reply.headers.filter fun f => ¬IsPermission f.name) =
    answer.headers.filter fun f => ¬IsPermission f.name

/-- Each field of the permission is there once, with its one value. -/
theorem values_permitted_of_mem (p : Response) {f : Header} (hf : f ∈ permissions) :
    (permitted p).headers.values f.name = [f.value] :=
  values_foldl_set (by decide) p.headers hf

/-- The permission is granted with any answer. -/
theorem permits_permitted (p : Response) : Permits p (permitted p) where
  status := rfl
  body := rfl
  origin := values_permitted_of_mem p (f := .ofText _ _) (by simp [permissions])
  methods := values_permitted_of_mem p (f := .ofText _ _) (by simp [permissions])
  headers := values_permitted_of_mem p (f := .ofText _ _) (by simp [permissions])
  values name h := values_permitted p fun f hf heq => h ((isPermission_iff name).2 ⟨f, hf, heq⟩)
  fields := by
    apply filter_foldl_set
    intro f hf f' hname
    have hmem : IsPermission f'.name := (isPermission_iff _).2 ⟨f, hf, hname.symm⟩
    exact decide_eq_false (not_not_intro hmem)

/-- The permission is given to an answer if there is one. -/
theorem rel_permits_map (answer : Option Response) :
    Option.Rel Permits answer (answer.map permitted) := by
  cases answer with
  | none => exact .none
  | some p => exact .some (permits_permitted p)

/-! ## The guards behind the permission -/

/-- The refusal of plaintext does not touch the replies of others. -/
theorem leavesReplies_requireTls : (requireTls : Stage σ).LeavesReplies := by
  intro r s r' amend s' hdecide p s''
  simp only [requireTls] at hdecide
  split at hdecide
  · cases hdecide
    rfl
  · cases hdecide

/-- The gate does not touch the replies of others. -/
theorem leavesReplies_throttle : (throttle : Stage (Desk α × τ)).LeavesReplies := by
  intro r s r' amend s' hdecide p s''
  simp only [throttle] at hdecide
  split at hdecide
  · cases hdecide
    rfl
  · cases hdecide
    rfl
  · cases hdecide
  · cases hdecide

/-- No stage behind the permission touches the replies of others. -/
theorem leavesReplies_behindPermission (s : Settings) :
    ∀ t ∈ (behindPermission s : Chain (Desk α × τ)), t.LeavesReplies := by
  intro t ht
  rw [behindPermission, List.mem_append] at ht
  rcases ht with ht | ht
  · split at ht
    · exact List.mem_singleton.1 ht ▸ leavesReplies_requireTls
    · cases ht
  · split at ht
    · exact List.mem_singleton.1 ht ▸ leavesReplies_throttle
    · cases ht

/-! ## Every chain with the permission in front -/

/-- The permission answers a request for it; to every other request it replies with what the rest of
    the chain says. -/
theorem rel_permits_wrap (c : Chain σ) (inner : Handler σ) (r : Request) (s : σ) :
    let out := Chain.wrap (crossOrigin :: c) inner r s
    (r.method = .options → Option.Rel Permits (some (.bare 204)) out.1 ∧ out.2 = s) ∧
      (r.method ≠ .options →
        Option.Rel Permits (c.wrap inner r s).1 out.1 ∧ out.2 = (c.wrap inner r s).2) := by
  intro out
  have hout : out = if r.method = .options then (some (permitted (.bare 204)), s)
      else ((c.wrap inner r s).1.map permitted, (c.wrap inner r s).2) :=
    around_crossOrigin (c.wrap inner) r s
  refine ⟨fun h => ?_, fun h => ?_⟩
  · rw [hout, if_pos h]
    exact ⟨.some (permits_permitted _), rfl⟩
  · rw [hout, if_neg h]
    exact ⟨rel_permits_map _, rfl⟩

/-- What the guards behind the permission, or the handler behind them, answer. -/
theorem answer_behindPermission (s : Settings) (inner : Handler τ) (d : Desk α) (t : τ)
    (r : Request) :
    let answer := (behindPermission s).answer (.behind inner) r (d, t)
    (InPlain s r → answer = some (.plain 403 "Insecure connections are not allowed")) ∧
      (¬InPlain s r → s.admission.enabled = true → ∀ route wait,
        (asked d r).1 = .rejected route wait → answer = some (rejection α wait)) ∧
      (¬InPlain s r → (s.admission.enabled = true → (asked d r).1.allowed = true) →
        answer = (inner r t).1) := by
  intro answer
  -- The guards leave replies alone, so it is enough to see what they reply.
  have hanswer : answer = ((behindPermission s).wrap (.behind inner) r (d, t)).1 :=
    (Chain.fst_wrap _ (leavesReplies_behindPermission s) _ r _).symm
  rw [hanswer]
  refine ⟨fun h => ?_, fun h henabled route wait hv => ?_, fun h hallowed => ?_⟩
  · rw [wrap_behindPermission_of_inPlain _ h]
  · rw [wrap_behindPermission_of_not_inPlain _ h, if_pos henabled, throttle_behind, hv]
  · rw [wrap_behindPermission_of_not_inPlain _ h]
    by_cases henabled : s.admission.enabled = true
    · have hv := hallowed henabled
      rw [if_pos henabled, throttle_behind]
      cases hverdict : (asked d r).1 with
      | unlimited | admitted => rfl
      | rejected route wait | unrepresentable route =>
        rw [hverdict] at hv
        exact absurd hv Bool.false_ne_true
    · rw [if_neg henabled]
      rfl

/-- Every reply of a chain with the permission in front has each field of the permission once, with
    its one value, and is otherwise what the rest of the chain replied: the same status, and all
    other fields in their order. If the stages behind leave replies alone, that is what the layer
    said that answered; the line of guards of any settings is such a chain, whether plaintext is
    refused, the desk rejects the request or the handler answers. Delivery adds fields to such a
    reply only where it has none. -/
theorem every_reply_permits :
    (∀ (c : Chain σ) (inner : Handler σ) (r : Request) (s : σ),
      let out := Chain.wrap (crossOrigin :: c) inner r s
      (r.method = .options → Option.Rel Permits (some (.bare 204)) out.1 ∧ out.2 = s) ∧
        (r.method ≠ .options →
          (Option.Rel Permits (c.wrap inner r s).1 out.1 ∧ out.2 = (c.wrap inner r s).2) ∧
          ((∀ t ∈ c, t.LeavesReplies) → Option.Rel Permits (c.answer inner r s) out.1))) ∧
    (∀ s : Settings, ∃ c : Chain (Desk α × τ),
      line s = crossOrigin :: c ∧ (∀ t ∈ c, t.LeavesReplies) ∧
        ∀ (inner : Handler τ) d t r,
          let answer := c.answer (.behind inner) r (d, t)
          (InPlain s r → answer = some (.plain 403 "Insecure connections are not allowed")) ∧
            (¬InPlain s r → s.admission.enabled = true → ∀ route wait,
              (asked d r).1 = .rejected route wait → answer = some (rejection α wait)) ∧
            (¬InPlain s r → (s.admission.enabled = true → (asked d r).1.allowed = true) →
              answer = (inner r t).1)) ∧
    ∀ (p : Response) method allowed,
      (p.deliver method allowed).status = p.status ∧
        ∀ name, p.headers.has name = true ∨ name ∉ ["allow", "content-length"] →
          (p.deliver method allowed).headers.values name = p.headers.values name := by
  refine ⟨fun c inner r s => ?_, fun s => ?_, fun p method allowed => ?_⟩
  · obtain ⟨hoptions, hother⟩ := rel_permits_wrap c inner r s
    refine ⟨hoptions, fun h => ⟨hother h, fun hleaves => ?_⟩⟩
    rw [← Chain.fst_wrap c hleaves inner r s]
    exact (hother h).1
  · exact ⟨behindPermission s, line_eq s, leavesReplies_behindPermission s,
      answer_behindPermission s⟩
  · exact ⟨p.status_deliver method allowed, fun _ h => p.values_deliver method allowed h⟩

/-- A handler whose answer names two origins and one method, and sets two cookies. -/
def outspoken : Handler Unit := fun _ t =>
  (some ⟨201, [.ofText "access-control-allow-origin" "https://a.example",
    .ofText "set-cookie" "a=1", .ofText "access-control-allow-methods" "PATCH",
    .ofText "access-control-allow-origin" "null", .ofText "set-cookie" "b=2"], "made"⟩, t)

/-- What an answer says of origins and methods gives way to the permission, and its cookies stay;
    the refusal of plaintext and that of a second request within a minute get the permission,
    too. -/
theorem every_reply_permits_outspoken :
    let s : Settings := { server := { requireTls := true } }
    let fresh : Desk Rat := .ofTable ⟨[(⟨.post, "/auth/"⟩, ⟨1, 0⟩)], by simp⟩
    let signIn (proto : String) : Request :=
      ⟨.post, "/auth/login", [.ofText "x-forwarded-proto" proto], none, 0⟩
    let reply (d : Desk Rat) (r : Request) := ((line s).wrap (.behind outspoken) r (d, ())).1
    (∃ p, reply fresh (signIn "HTTPS") = some p ∧ p.status = 201 ∧ p.body = "made" ∧
      p.headers.values "access-control-allow-origin" = ["*".toUTF8.toList] ∧
      p.headers.values "access-control-allow-methods" =
        ["GET, POST, PUT, DELETE, OPTIONS".toUTF8.toList] ∧
      p.headers.values "set-cookie" = ["a=1".toUTF8.toList, "b=2".toUTF8.toList]) ∧
    (∃ p, reply fresh (signIn "http") = some p ∧ p.status = 403 ∧
      p.headers.values "access-control-allow-origin" = ["*".toUTF8.toList]) ∧
    ∃ p, reply (asked fresh (signIn "https")).2 (signIn "https") = some p ∧ p.status = 429 ∧
      p.headers.values "access-control-allow-origin" = ["*".toUTF8.toList] ∧
      p.headers.values "retry-after" = ["60".toUTF8.toList] := by
  intro s fresh signIn reply
  obtain ⟨hwrap, hline, -⟩ := every_reply_permits (α := Rat) (τ := Unit) (σ := Desk Rat × Unit)
  obtain ⟨c, hc, hleaves, hanswer⟩ := hline s
  -- What the layer says that answers comes back with the permission.
  have hpermits : ∀ d proto p, c.answer (.behind outspoken) (signIn proto) (d, ()) = some p →
      ∃ p', reply d (signIn proto) = some p' ∧ Permits p p' := by
    intro d proto p hp
    have hpost : (signIn proto).method ≠ .options := show Http.Method.post ≠ .options by decide
    have hrel := ((hwrap c (.behind outspoken) (signIn proto) (d, ())).2 hpost).2 hleaves
    rw [hp, ← hc] at hrel
    change Option.Rel Permits (some p) (reply d (signIn proto)) at hrel
    generalize reply d (signIn proto) = out at hrel
    cases hrel with
    | some h => exact ⟨_, rfl, h⟩
  have hspelt : ∀ proto, Spells "https" proto.toUTF8.toList → ¬InPlain s (signIn proto) :=
    fun proto hspells h => h.2.2 ⟨_, rfl, hspells⟩
  refine ⟨?_, ?_, ?_⟩
  · have hinside := (hanswer outspoken fresh () (signIn "HTTPS")).2.2
      (hspelt _ (by decide +kernel)) fun _ => by decide +kernel
    obtain ⟨p, hp, h⟩ := hpermits fresh "HTTPS" _ hinside
    exact ⟨p, hp, h.status, h.body, h.origin, h.methods, h.values "set-cookie" (by decide)⟩
  · have hplain : ¬SaysEncrypted (signIn "http") := by
      rintro ⟨v, hv, hspells⟩
      cases hv
      revert hspells
      decide +kernel
    have hrefused := (hanswer outspoken fresh () (signIn "http")).1 ⟨rfl, rfl, hplain⟩
    obtain ⟨p, hp, h⟩ := hpermits fresh "http" _ hrefused
    exact ⟨p, hp, h.status, h.origin⟩
  · have hverdict : (asked (asked fresh (signIn "https")).2 (signIn "https")).1 =
        .rejected ⟨.post, "/auth/"⟩ 60000000000 := by decide +kernel
    have hlimited := (hanswer outspoken (asked fresh (signIn "https")).2 () (signIn "https")).2.1
      (hspelt _ (by decide +kernel)) rfl _ _ hverdict
    obtain ⟨p, hp, h⟩ := hpermits _ "https" _ hlimited
    refine ⟨p, hp, h.status, h.origin, (h.values "retry-after" (by decide)).trans ?_⟩
    have hseconds : retryAfter Rat 60000000000 = 60 := by decide +kernel
    rw [rejection, hseconds, Headers.values_set]
    exact if_pos rfl

end Guard

end Gatehouse
