import Gatehouse.Http.Chain

/-!
# The way of a request through a chain

A chain around a handler is a handler, so one chain can be put inside another. A request goes
inwards from stage to stage until a stage answers it, and past all of them to the handler; the reply
comes back past the stages that let the request pass, the innermost first.

To tell who was asked and in which order, the stages and the handler can be watched: each notes down
that it was asked, and each stage that it got the reply. A watched chain replies as the chain does.

## Key results

- `Chain.wrap_append`: one chain inside another is their stages in one chain
- `Handler.Shows.wrap`: to be watched changes nothing
- `Passes.wrap`: what passes some stages is answered inside, and the answer comes back past them
- `Chain.sightings_of_answered` / `Chain.sightings_of_passes`: who gets the request and the reply
- `stages_in_order`: which stages are asked, and who answers
-/

namespace Gatehouse.Http

variable {σ : Type}

/-! ### One chain inside another -/

namespace Chain

/-- Two chains in a row stand around a handler as one inside the other. -/
theorem wrap_append (c c' : Chain σ) (inner : Handler σ) :
    wrap (c ++ c') inner = c.wrap (c'.wrap inner) := List.foldr_append

/-- The stages are put around the handler one by one, the last one first. -/
theorem wrap_eq_foldl_reverse (c : Chain σ) (inner : Handler σ) :
    c.wrap inner = c.reverse.foldl (fun h t => t.around h) inner := by
  rw [List.foldl_reverse]
  rfl

end Chain

/-! ### The way inwards and the way back -/

/-- A stage that let a request pass, and what it will do with the reply. -/
structure Visit (σ : Type) where
  stage : Stage σ
  amend : Response → σ → Response × σ

/-- What a stage that let a request pass makes of what comes back; it is not told if nothing
    does. -/
def Visit.back (v : Visit σ) : Option Response × σ → Option Response × σ
  | (none, s) => (none, s)
  | (some p, s) => (some (v.amend p s).1, (v.amend p s).2)

/-- What comes back past stages, the last of them first. -/
def back (vs : List (Visit σ)) (out : Option Response × σ) : Option Response × σ :=
  vs.foldr Visit.back out

/-- Whether a request that comes in some state is let pass by all stages of a chain, and as which
    request and in which state it comes out behind them. -/
inductive Passes : Chain σ → Request → σ → List (Visit σ) → Request → σ → Prop
  | nil (r : Request) (s : σ) : Passes [] r s [] r s
  | cons {t : Stage σ} {c : Chain σ} {r r₁ r' : Request} {s s₁ s' : σ}
    {amend : Response → σ → Response × σ} {vs : List (Visit σ)}
    (lets : t.decide r s = (.forward r₁ amend, s₁)) (rest : Passes c r₁ s₁ vs r' s') :
    Passes (t :: c) r s (⟨t, amend⟩ :: vs) r' s'

/-- A request that a stage lets pass is answered by what is inside, and the stage gets the
    answer. -/
theorem Stage.around_of_forward {t : Stage σ} {r r₁ : Request} {s s₁ : σ}
    {amend : Response → σ → Response × σ} (h : t.decide r s = (.forward r₁ amend, s₁))
    (inner : Handler σ) : t.around inner r s = (⟨t, amend⟩ : Visit σ).back (inner r₁ s₁) := by
  simp only [Stage.around, h]
  cases inner r₁ s₁ with
  | mk p s => cases p <;> rfl

/-- What gave up is handed back as it is: no stage looks at it. -/
theorem back_none (vs : List (Visit σ)) (s : σ) : back vs (none, s) = (none, s) := by
  induction vs with
  | nil => rfl
  | cons v vs ih => rw [back, List.foldr_cons, ← back, ih, Visit.back]

/-- An answer stays an answer on its way back. -/
theorem exists_back_some (vs : List (Visit σ)) (p : Response) (s : σ) :
    ∃ p' s', back vs (some p, s) = (some p', s') := by
  induction vs with
  | nil => exact ⟨p, s, rfl⟩
  | cons v vs ih =>
    obtain ⟨p', s', h⟩ := ih
    exact ⟨_, _, by rw [back, List.foldr_cons, ← back, h, Visit.back]⟩

namespace Passes

variable {c : Chain σ} {r r' : Request} {s s' : σ} {vs : List (Visit σ)}

/-- The stages that were passed are those of the chain, in their order. -/
theorem map_stage (h : Passes c r s vs r' s') : vs.map (·.stage) = c := by
  induction h with
  | nil => rfl
  | cons _ _ ih => rw [List.map_cons, ih]

/-- What passes the stages of a chain is answered by what is inside, and the answer comes back past
    these stages. -/
theorem wrap (h : Passes c r s vs r' s') (inner : Handler σ) :
    c.wrap inner r s = back vs (inner r' s') := by
  induction h with
  | nil => rfl
  | cons lets _ ih =>
    rw [Chain.wrap_cons, Stage.around_of_forward lets, ih, back, back, List.foldr_cons]

end Passes

namespace Chain

/-- Whether a stage of a chain answers a request that comes in some state: all stages in front of it
    let the request pass. -/
def Answered (c : Chain σ) (r : Request) (s : σ) : Prop :=
  ∃ before t after vs r' s' p s'', c = before ++ t :: after ∧ Passes before r s vs r' s' ∧
    t.decide r' s' = (.reply p, s'')

/-- Whether a stage of a chain gives up on a request that comes in some state. -/
def Abandoned (c : Chain σ) (r : Request) (s : σ) : Prop :=
  ∃ before t after vs r' s' s'', c = before ++ t :: after ∧ Passes before r s vs r' s' ∧
    t.decide r' s' = (.abort, s'')

/-- A request passes all stages, or one of them answers it or gives up. -/
theorem passes_or_stops (c : Chain σ) (r : Request) (s : σ) :
    (∃ vs r' s', Passes c r s vs r' s') ∨ c.Answered r s ∨ c.Abandoned r s := by
  induction c generalizing r s with
  | nil => exact .inl ⟨[], r, s, .nil r s⟩
  | cons t c ih =>
    cases h : t.decide r s with
    | mk decision s₁ =>
      cases decision with
      | reply p => exact .inr (.inl ⟨[], t, c, [], r, s, p, s₁, rfl, .nil r s, h⟩)
      | abort => exact .inr (.inr ⟨[], t, c, [], r, s, s₁, rfl, .nil r s, h⟩)
      | forward r₁ amend =>
        -- What becomes of the request is decided further in.
        rcases ih r₁ s₁ with ⟨vs, r', s', hpasses⟩ | hstops | hstops
        · exact .inl ⟨_, r', s', .cons h hpasses⟩
        · obtain ⟨before, t', after, vs, r', s', p, s'', rfl, hpasses, hreply⟩ := hstops
          have hfar := Passes.cons h hpasses
          exact .inr (.inl ⟨t :: before, t', after, _, r', s', p, s'', rfl, hfar, hreply⟩)
        · obtain ⟨before, t', after, vs, r', s', s'', rfl, hpasses, habort⟩ := hstops
          have hfar := Passes.cons h hpasses
          exact .inr (.inr ⟨t :: before, t', after, _, r', s', s'', rfl, hfar, habort⟩)

end Chain

/-! ### Who is asked -/

/-- What is noted down about a request on its way. -/
inductive Sighting (σ : Type)
  /-- A stage got the request. -/
  | asked (t : Stage σ)
  /-- The handler inside got the request. -/
  | handled
  /-- A stage got the reply. -/
  | told (t : Stage σ)

/-- Whether it was the handler that got the request. -/
def Sighting.isHandled : Sighting σ → Bool
  | handled => true
  | asked _ => false
  | told _ => false

/-- The name of the stage that got the request, if it was one. -/
def Sighting.nameAsked? : Sighting σ → Option String
  | asked t => some t.name
  | handled => none
  | told _ => none

/-- The stage, which notes down when it gets a request and when it gets the reply. -/
def Stage.watched (t : Stage σ) : Stage (σ × List (Sighting σ)) where
  name := t.name
  decide r st :=
    let seen := st.2 ++ [.asked t]
    match t.decide r st.1 with
    | (.reply p, s) => (.reply p, (s, seen))
    | (.abort, s) => (.abort, (s, seen))
    | (.forward r amend, s) =>
      (.forward r fun p st => ((amend p st.1).1, ((amend p st.1).2, st.2 ++ [.told t])), (s, seen))

/-- The handler, which notes down when it gets a request. -/
def Handler.watched (inner : Handler σ) : Handler (σ × List (Sighting σ)) := fun r st =>
  ((inner r st.1).1, ((inner r st.1).2, st.2 ++ [.handled]))

/-- A stage that let a request pass, and which will note down when it gets the reply. -/
def Visit.watched (v : Visit σ) : Visit (σ × List (Sighting σ)) where
  stage := v.stage.watched
  amend p st := ((v.amend p st.1).1, ((v.amend p st.1).2, st.2 ++ [.told v.stage]))

namespace Chain

/-- The chain, all of whose stages note down what they get. -/
def watched (c : Chain σ) : Chain (σ × List (Sighting σ)) := c.map Stage.watched

/-- What is noted down about a request on its way through a chain to a handler and back. -/
def sightings (c : Chain σ) (inner : Handler σ) (r : Request) (s : σ) : List (Sighting σ) :=
  (c.watched.wrap inner.watched r (s, [])).2.2

end Chain

/-- Whether a handler that notes something down replies as another one does. -/
def Handler.Shows (h : Handler (σ × List (Sighting σ))) (h₀ : Handler σ) : Prop :=
  ∀ r s seen, ((h r (s, seen)).1, (h r (s, seen)).2.1) = h₀ r s

/-- A handler that is watched replies as it did. -/
theorem Handler.shows_watched (inner : Handler σ) : inner.watched.Shows inner := fun _ _ _ => rfl

/-- A stage around a handler that is watched replies as it would around the handler. -/
theorem Handler.Shows.around {h : Handler (σ × List (Sighting σ))} {h₀ : Handler σ}
    (hshows : h.Shows h₀) (t : Stage σ) : Handler.Shows (t.watched.around h) (t.around h₀) := by
  intro r s seen
  simp only [Stage.around, Stage.watched]
  cases t.decide r s with
  | mk decision s₁ =>
    cases decision with
    | reply p => rfl
    | abort => rfl
    | forward r₁ amend =>
      dsimp only
      rw [← hshows r₁ s₁ (seen ++ [.asked t])]
      cases h r₁ (s₁, seen ++ [.asked t]) with
      | mk p st => cases p <;> rfl

/-- A watched chain replies as the chain does, and leaves the state that it leaves. -/
theorem Handler.Shows.wrap {h : Handler (σ × List (Sighting σ))} {h₀ : Handler σ}
    (hshows : h.Shows h₀) (c : Chain σ) : Handler.Shows (c.watched.wrap h) (c.wrap h₀) := by
  induction c with
  | nil => exact hshows
  | cons t c ih => exact ih.around t

/-- What passes a chain passes it also when it is watched, and every stage notes that down. -/
theorem Passes.watched {c : Chain σ} {r r' : Request} {s s' : σ} {vs : List (Visit σ)}
    (h : Passes c r s vs r' s') (seen : List (Sighting σ)) :
    Passes c.watched r (s, seen) (vs.map Visit.watched) r' (s', seen ++ c.map .asked) := by
  -- Induction on the way inwards: what the stages in front noted down is there already.
  induction h generalizing seen with
  | nil r s =>
    rw [List.map_nil, List.map_nil, List.append_nil]
    exact .nil r (s, seen)
  | @cons t c r r₁ r' s s₁ s' amend vs lets _ ih =>
    have hrest := ih (seen ++ [.asked t])
    rw [List.append_assoc, List.singleton_append] at hrest
    refine .cons ?_ hrest
    simp only [Stage.watched, lets]

/-- On its way back an answer is noted down by every stage, the last one first. -/
theorem back_watched (vs : List (Visit σ)) (p : Response) (s : σ) (seen : List (Sighting σ)) :
    back (vs.map Visit.watched) (some p, (s, seen)) =
      ((back vs (some p, s)).1,
        ((back vs (some p, s)).2, seen ++ (vs.map (·.stage)).reverse.map .told)) := by
  induction vs with
  | nil => exact congrArg (fun seen => (some p, (s, seen))) (List.append_nil seen).symm
  | cons v vs ih =>
    -- The stages further in hand an answer on, so the outermost one gets it.
    obtain ⟨p', s', h⟩ := exists_back_some vs p s
    rw [h] at ih
    simp only [back, List.map_cons, List.foldr_cons] at ih h ⊢
    rw [ih, h]
    simp only [Visit.back, Visit.watched, List.reverse_cons, List.map_append, List.map_cons,
      List.map_nil, List.append_assoc]

namespace Chain

variable {c before after : Chain σ} {t : Stage σ} {r r' : Request} {s s' s'' : σ}
  {vs : List (Visit σ)} {p : Response}

/-- Two chains in a row are watched in a row. -/
theorem watched_append (c c' : Chain σ) : watched (c ++ c') = c.watched ++ c'.watched :=
  List.map_append

/-- What is noted down up to a place in the chain is followed by what is noted down behind it. -/
theorem sightings_append (h : Passes before r s vs r' s') (c' : Chain σ) (inner : Handler σ) :
    sightings (before ++ c') inner r s =
      (back (vs.map Visit.watched)
        (c'.watched.wrap inner.watched r' (s', before.map .asked))).2.2 := by
  rw [sightings, watched_append, wrap_append, (h.watched []).wrap, List.nil_append]

/-- A stage that answers is the last one that gets the request. Those in front of it get the reply,
    from the inside out. -/
theorem sightings_of_answered (h : Passes before r s vs r' s')
    (hreply : t.decide r' s' = (.reply p, s'')) (inner : Handler σ) :
    sightings (before ++ t :: after) inner r s =
      before.map .asked ++ [.asked t] ++ before.reverse.map .told := by
  have hturn : wrap (watched (t :: after)) inner.watched r' (s', before.map .asked) =
      (some p, (s'', before.map .asked ++ [.asked t])) := by
    simp only [watched, List.map_cons, wrap_cons, Stage.around, Stage.watched, hreply]
  rw [sightings_append h, hturn, back_watched, h.map_stage]

/-- Nobody is told of a request that a stage gave up on. -/
theorem sightings_of_abandoned (h : Passes before r s vs r' s')
    (habort : t.decide r' s' = (.abort, s'')) (inner : Handler σ) :
    sightings (before ++ t :: after) inner r s = before.map .asked ++ [.asked t] := by
  have hturn : wrap (watched (t :: after)) inner.watched r' (s', before.map .asked) =
      (none, (s'', before.map .asked ++ [.asked t])) := by
    simp only [watched, List.map_cons, wrap_cons, Stage.around, Stage.watched, habort]
  rw [sightings_append h, hturn, back_none]

/-- A request that passes all stages gets to the handler, and its reply to all stages, from the
    inside out. -/
theorem sightings_of_passes (h : Passes c r s vs r' s') (inner : Handler σ) :
    sightings c inner r s = c.map .asked ++ [.handled] ++
      (if (inner r' s').1.isSome then c.reverse else []).map .told := by
  -- Behind all stages there is only the handler.
  have hall := sightings_append h [] inner
  rw [List.append_nil] at hall
  rw [hall, watched, List.map_nil, wrap_nil, Handler.watched]
  dsimp only
  cases inner r' s' with
  | mk p s'' =>
    cases p with
    | none =>
      rw [back_none, Option.isSome_none, if_neg Bool.false_ne_true, List.map_nil, List.append_nil]
    | some p => rw [back_watched, h.map_stage, Option.isSome_some, if_pos rfl]

/-- Of what is noted down, only what is between the way in and the way back can be about the
    handler. -/
theorem countP_isHandled (asked told : Chain σ) (turn : List (Sighting σ)) :
    (asked.map Sighting.asked ++ turn ++ told.map Sighting.told).countP Sighting.isHandled =
      turn.countP Sighting.isHandled := by
  have hasked : (asked.map .asked : List (Sighting σ)).countP Sighting.isHandled = 0 := by
    simp [List.countP_eq_zero, Sighting.isHandled]
  have htold : (told.map .told : List (Sighting σ)).countP Sighting.isHandled = 0 := by
    simp [List.countP_eq_zero, Sighting.isHandled]
  rw [List.countP_append, List.countP_append, hasked, htold, Nat.zero_add, Nat.add_zero]

/-- The stages that got the request are named in their order. -/
theorem filterMap_nameAsked? (asked told : Chain σ) (turn : List (Sighting σ)) :
    (asked.map Sighting.asked ++ turn ++ told.map Sighting.told).filterMap Sighting.nameAsked? =
      asked.names ++ turn.filterMap Sighting.nameAsked? := by
  have hasked : (asked.map .asked : List (Sighting σ)).filterMap Sighting.nameAsked? =
      asked.names := by
    rw [List.filterMap_map, names, ← List.filterMap_eq_map]
    rfl
  have htold : (told.map .told : List (Sighting σ)).filterMap Sighting.nameAsked? = [] := by
    simp [List.filterMap_eq_nil_iff, Sighting.nameAsked?]
  rw [List.filterMap_append, List.filterMap_append, hasked, htold, List.append_nil]

end Chain

/-! ### Who answers -/

/-- Whether a stage never gives up: it answers a request, or lets it pass. -/
def Stage.Decides (t : Stage σ) : Prop := ∀ r s, (t.decide r s).1 ≠ .abort

/-- What becomes of a request that comes in some state to a chain around a handler. -/
structure Course (c : Chain σ) (inner : Handler σ) (r : Request) (s : σ) : Prop where
  /-- To be watched changes nothing. -/
  unnoticed : ((c.watched.wrap inner.watched r (s, [])).1,
    (c.watched.wrap inner.watched r (s, [])).2.1) = c.wrap inner r s
  /-- It passes all stages or one of them answers it, if none gives up. -/
  settled : (∀ t ∈ c, t.Decides) → (∃ vs r' s', Passes c r s vs r' s') ∨ c.Answered r s
  /-- A stage that answers is the last one that is asked, and its answer comes back past those in
      front of it. -/
  answered : ∀ {before t after vs r' s' p s''}, c = before ++ t :: after →
    Passes before r s vs r' s' → t.decide r' s' = (.reply p, s'') →
      c.wrap inner r s = back vs (some p, s'') ∧ vs.map (·.stage) = before ∧
        c.sightings inner r s = before.map .asked ++ [.asked t] ++ before.reverse.map .told ∧
        (c.sightings inner r s).filterMap Sighting.nameAsked? = c.names.take (before.length + 1)
  /-- A request that passes all stages is answered by the handler, and its answer comes back past
      all of them. -/
  passed : ∀ {vs r' s'}, Passes c r s vs r' s' →
    c.wrap inner r s = back vs (inner r' s') ∧ vs.map (·.stage) = c ∧
      c.sightings inner r s = c.map .asked ++ [.handled] ++
        (if (inner r' s').1.isSome then c.reverse else []).map .told ∧
      (c.sightings inner r s).filterMap Sighting.nameAsked? = c.names
  /-- The handler is asked at most once. -/
  once : (c.sightings inner r s).countP Sighting.isHandled ≤ 1
  /-- It is asked unless a stage answers. -/
  handled_iff : (∀ t ∈ c, t.Decides) →
    ((c.sightings inner r s).countP Sighting.isHandled = 1 ↔ ¬c.Answered r s)

namespace Chain

variable {c : Chain σ} {inner : Handler σ} {r : Request} {s : σ}

/-- A request that passes all stages is handled once. -/
theorem countP_of_passes {vs : List (Visit σ)} {r' : Request} {s' : σ}
    (h : Passes c r s vs r' s') : (c.sightings inner r s).countP Sighting.isHandled = 1 := by
  rw [sightings_of_passes h, countP_isHandled]
  rfl

/-- A request that a stage answers is not handled. -/
theorem Answered.countP (h : c.Answered r s) :
    (c.sightings inner r s).countP Sighting.isHandled = 0 := by
  obtain ⟨before, t, after, vs, r', s', p, s'', rfl, hpasses, hreply⟩ := h
  rw [sightings_of_answered hpasses hreply, countP_isHandled]
  rfl

/-- A request on which a stage gives up is not handled. -/
theorem Abandoned.countP (h : c.Abandoned r s) :
    (c.sightings inner r s).countP Sighting.isHandled = 0 := by
  obtain ⟨before, t, after, vs, r', s', s'', rfl, hpasses, habort⟩ := h
  have hcount := countP_isHandled before [] [Sighting.asked t]
  rw [List.map_nil, List.append_nil] at hcount
  rw [sightings_of_abandoned hpasses habort, hcount]
  rfl

/-- Only a stage that does not always decide gives up. -/
theorem Abandoned.exists_not_decides (h : c.Abandoned r s) : ∃ t ∈ c, ¬t.Decides := by
  obtain ⟨before, t, after, vs, r', s', s'', rfl, -, habort⟩ := h
  refine ⟨t, List.mem_append_right before List.mem_cons_self, fun hdecides => ?_⟩
  exact hdecides r' s' (congrArg Prod.fst habort)

/-- Every request has its course. -/
theorem course (c : Chain σ) (inner : Handler σ) (r : Request) (s : σ) : Course c inner r s where
  unnoticed := inner.shows_watched.wrap c r s []
  settled := by
    intro hdecides
    rcases c.passes_or_stops r s with hpasses | hanswered | habandoned
    · exact .inl hpasses
    · exact .inr hanswered
    · obtain ⟨t, ht, hnot⟩ := habandoned.exists_not_decides
      exact absurd (hdecides t ht) hnot
  answered := by
    rintro before t after vs r' s' p s'' rfl hpasses hreply
    have hsightings : sightings (before ++ t :: after) inner r s =
        before.map .asked ++ [.asked t] ++ before.reverse.map .told :=
      sightings_of_answered hpasses hreply inner
    refine ⟨?_, hpasses.map_stage, hsightings, ?_⟩
    · rw [wrap_append, hpasses.wrap, wrap_cons, Stage.around, hreply]
    -- The names of those that were asked are the first ones of the chain.
    · have hnames : names (before ++ t :: after) = (before.names ++ [t.name]) ++ names after := by
        simp only [names, List.map_append, List.map_cons, List.append_assoc, List.singleton_append]
      have hlength : before.length + 1 = (before.names ++ [t.name]).length := by
        simp only [names, List.length_append, List.length_map, List.length_singleton]
      rw [hsightings, filterMap_nameAsked?, hnames, hlength, List.take_left]
      rfl
  passed := by
    intro vs r' s' hpasses
    refine ⟨hpasses.wrap inner, hpasses.map_stage, sightings_of_passes hpasses inner, ?_⟩
    rw [sightings_of_passes hpasses, filterMap_nameAsked?]
    exact List.append_nil _
  once := by
    -- The handler is reached only past all stages.
    rcases c.passes_or_stops r s with ⟨vs, r', s', hpasses⟩ | hanswered | habandoned
    · exact Nat.le_of_eq (countP_of_passes hpasses)
    · rw [hanswered.countP]
      exact Nat.zero_le 1
    · rw [habandoned.countP]
      exact Nat.zero_le 1
  handled_iff := by
    intro hdecides
    rcases c.passes_or_stops r s with ⟨vs, r', s', hpasses⟩ | hanswered | habandoned
    · have hone : (c.sightings inner r s).countP Sighting.isHandled = 1 := countP_of_passes hpasses
      constructor
      · intro _ hanswered
        rw [hanswered.countP] at hone
        exact Nat.zero_ne_one hone
      · intro _
        exact hone
    · rw [hanswered.countP]
      constructor
      · intro hone
        exact absurd hone Nat.zero_ne_one
      · intro hnot
        exact absurd hanswered hnot
    · obtain ⟨t, ht, hnot⟩ := habandoned.exists_not_decides
      exact absurd (hdecides t ht) hnot

end Chain

/-- A chain inside another one is one chain of their stages, and a chain without stages is none. A
    request comes to the stages in the order in which they are named, up to the first that answers
    it, and past all of them to the handler; the reply comes back past them in the reverse order.
    The handler is asked once if no stage answers, and otherwise not at all. -/
theorem stages_in_order {σ : Type} (c : Chain σ) (inner : Handler σ) :
    (∀ c' : Chain σ, Chain.wrap (c ++ c') inner = c.wrap (c'.wrap inner)) ∧
      Chain.wrap [] inner = inner ∧
      c.wrap inner = c.reverse.foldl (fun h t => t.around h) inner ∧
      ∀ r s, Course c inner r s :=
  ⟨fun c' => Chain.wrap_append c c' inner, rfl, Chain.wrap_eq_foldl_reverse c inner,
    c.course inner⟩

/-- Lets every request pass, and signs the reply. -/
def signing (name : String) : Stage Unit where
  name := name
  decide r s := (.forward r fun p s => ({ p with body := p.body ++ "," ++ name }, s), s)

/-- Answers every request. -/
def closing (name : String) : Stage Unit := ⟨name, fun _ s => (.reply (.plain 418 "stopped"), s)⟩

/-- The outer one of two stages signs last; where a stage between them answers, the inner one is not
    asked. -/
theorem stages_in_order_signing :
    let outer := signing "outer"
    let inner := signing "inner"
    let stop := closing "stop"
    let handler : Handler Unit := fun _ s => (some (.plain 200 "ok"), s)
    let r : Request := ⟨.get, "/", [], none, 0⟩
    (∀ t ∈ [outer, inner], t.Decides) ∧
      Chain.wrap [outer, inner] handler r () = (some (.plain 200 "ok,inner,outer"), ()) ∧
      (Chain.sightings [outer, inner] handler r ()).filterMap Sighting.nameAsked? =
        ["outer", "inner"] ∧
      (Chain.sightings [outer, inner] handler r ()).countP Sighting.isHandled = 1 ∧
      Chain.wrap [outer, stop, inner] handler r () = (some (.plain 418 "stopped,outer"), ()) ∧
      Chain.sightings [outer, stop, inner] handler r () =
        [.asked outer, .asked stop, .told outer] := by
  intro outer inner stop handler r
  have hdecides : ∀ t ∈ [outer, inner], t.Decides := by
    intro t ht
    simp only [List.mem_cons, List.not_mem_nil, or_false] at ht
    rcases ht with rfl | rfl <;> exact fun _ _ h => nomatch h
  have hpasses : Passes [outer, inner] r () _ r () := .cons rfl (.cons rfl (.nil r ()))
  have hfirst : Passes [outer] r () _ r () := .cons rfl (.nil r ())
  have hcourse := (stages_in_order [outer, inner] handler).2.2.2 r ()
  have hstopped := (stages_in_order [outer, stop, inner] handler).2.2.2 r ()
  obtain ⟨hwrap, -, -, hnames⟩ := hcourse.passed hpasses
  have hsplit : [outer, stop, inner] = [outer] ++ stop :: [inner] := rfl
  obtain ⟨hwrap', -, hsightings, -⟩ := hstopped.answered hsplit hfirst rfl
  have hone : (Chain.sightings [outer, inner] handler r ()).countP Sighting.isHandled = 1 :=
    Chain.countP_of_passes hpasses
  exact ⟨hdecides, hwrap, hnames, hone, hwrap', hsightings⟩

end Gatehouse.Http
