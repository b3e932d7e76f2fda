import Gatehouse.Proofs.CommandLine.Words

/-!
# Reading options

The reader keeps the last option of a level until the next one comes, so that a value is judged
late. Nothing depends on this: what comes of some arguments is the same if the last option is judged
at once. So the options of a level can be read one after the other, each as if it were alone.

## Key results

- `Level.readFrom_eq_ok_iff_settle`: the last option may be judged at once
- `Level.readFrom_gives_iff` / `Level.gives_of_readFrom`: one option, forwards and backwards
- `Level.readFrom_options_iff` / `Level.exists_options`: all options of a level
-/

namespace Gatehouse.CommandLine

/-- Two computations in a row succeed if the first one does, and then the second. -/
theorem bind_eq_ok_iff {ε α β : Type} {x : Except ε α} {f : α → Except ε β} {b : β} :
    x >>= f = .ok b ↔ ∃ a, x = .ok a ∧ f a = .ok b := by
  cases x with
  | error e => exact iff_of_false nofun fun ⟨_, h, _⟩ => nomatch h
  | ok a => exact ⟨fun h => ⟨a, rfl, h⟩, fun ⟨_, h, h'⟩ => by cases h; exact h'⟩

/-! ## Values that are kept -/

/-- Whether values can be kept together: no parameter has two, and none is objected to. -/
structure Kept (options : List (Parameter × String)) : Prop where
  nodup : (options.map Prod.fst).Nodup
  sound : ∀ o ∈ options, o.1.objection? o.2 = none

section Kept

variable {options others : List (Parameter × String)} {p : Parameter} {v : String}

/-- A parameter without a value is not among those that have one. -/
theorem lookup_eq_none_iff : options.lookup p = none ↔ p ∉ options.map Prod.fst := by
  rw [List.lookup_eq_none_iff, List.mem_map]
  constructor
  · rintro h ⟨o, ho, rfl⟩
    simpa using h o ho
  · intro h o ho
    simp only [bne_iff_ne]
    rintro rfl
    exact h ⟨o, ho, rfl⟩

/-- No values can be kept together. -/
theorem kept_nil : Kept [] := ⟨List.nodup_nil, nofun⟩

/-- Values are kept together with others if both are kept and no parameter has one of each. -/
theorem kept_append_iff :
    Kept (options ++ others) ↔
      Kept options ∧ Kept others ∧ ∀ o ∈ options, ∀ o' ∈ others, o.1 ≠ o'.1 := by
  have hnodup : ((options ++ others).map Prod.fst).Nodup ↔
      (options.map Prod.fst).Nodup ∧ (others.map Prod.fst).Nodup ∧
        ∀ o ∈ options, ∀ o' ∈ others, o.1 ≠ o'.1 := by
    rw [List.map_append, List.nodup_append]
    simp only [List.forall_mem_map]
  constructor
  · rintro ⟨h, hsound⟩
    obtain ⟨hoptions, hothers, hapart⟩ := hnodup.1 h
    exact ⟨⟨hoptions, fun o ho => hsound o (List.mem_append_left _ ho)⟩,
      ⟨hothers, fun o ho => hsound o (List.mem_append_right _ ho)⟩, hapart⟩
  · rintro ⟨hoptions, hothers, hapart⟩
    refine ⟨hnodup.2 ⟨hoptions.nodup, hothers.nodup, hapart⟩, fun o ho => ?_⟩
    rcases List.mem_append.1 ho with ho | ho
    · exact hoptions.sound o ho
    · exact hothers.sound o ho

/-- One more value is kept if its parameter has none and it is not objected to. -/
theorem kept_snoc_iff :
    Kept (options ++ [(p, v)]) ↔
      Kept options ∧ options.lookup p = none ∧ p.objection? v = none := by
  have hsingle : Kept [(p, v)] ↔ p.objection? v = none :=
    ⟨fun h => h.sound (p, v) (by simp), fun h => ⟨by simp, by simpa using h⟩⟩
  have hapart : (∀ o ∈ options, ∀ o' ∈ [(p, v)], o.1 ≠ o'.1) ↔ options.lookup p = none := by
    rw [lookup_eq_none_iff]
    simp only [List.mem_singleton, forall_eq, List.mem_map, not_exists, not_and]
  rw [kept_append_iff, hsingle, hapart, and_comm (a := p.objection? v = none)]

end Kept

/-! ## Judging the last option -/

namespace Reading

variable {r r' : Reading} {p : Parameter} {v : String}

/-- A value is taken if its parameter has none and it is not objected to, and then it is the last
    one. -/
theorem take_eq_ok_iff :
    r.take p v = .ok r' ↔
      r.given.lookup p = none ∧ p.objection? v = none ∧
        r' = { r with given := r.given ++ [(p, v)] } := by
  unfold take
  cases r.given.lookup p with
  | some v' => simp
  | none =>
    cases p.objection? v with
    | some e => simp
    | none => simp [eq_comm]

/-- What is left unchanged when the last option is judged. -/
theorem settled (h : r.settle = .ok r') :
    r'.settle = .ok r' ∧ r'.divided = r.divided ∧ r'.email = r.email ∧ r.waits = false ∧
      r'.waits = false := by
  unfold settle at h
  split at h
  · next hpending =>
    cases h
    simp [settle, waits, hpending]
  · cases h
  · next hpending =>
    obtain ⟨-, -, rfl⟩ := take_eq_ok_iff.1 h
    simp [settle, waits, hpending]

/-- The last option is judged in the same way on both sides of `--`. -/
theorem settle_divided (b : Bool) :
    { r with divided := b }.settle = r.settle.map fun r => { r with divided := b } := by
  obtain ⟨given, pending, divided, email⟩ := r
  match pending with
  | none => rfl
  | some (p, none) => rfl
  | some (p, some v) =>
    simp only [settle, take]
    split
    · rfl
    · split <;> rfl

/-- An option is taken in the same way if the one before it has been judged. -/
theorem option_of_settle (h : r.settle = .ok r') (l : Level) (m : Meaning) (value : Option String) :
    r.option l m value = r'.option l m value := by
  unfold option
  rw [h, (settled h).1]

/-- An option cannot be taken if the one before it is refused. -/
theorem option_of_settle_error {e : UsageError} (h : r.settle = .error e) (l : Level) (m : Meaning)
    (value : Option String) : r.option l m value = .error e := by
  unfold option
  rw [h]
  cases m <;> rfl

end Reading

/-- Whether no option comes next. -/
def Over (args : List String) : Prop := ∀ s ∈ args.head?, s = "--" ∨ Argument.Plain s

namespace Level

variable {env : Environment} {l : Level} {r r' : Reading} {args : List String} {i : Invocation}

/-- An argument that names no command is a step, and the others are read from there. -/
theorem readFrom_cons {s : String} {ss : List String} (h : l.next? r s = none) :
    l.readFrom env r (s :: ss) = l.step r s >>= fun r => l.readFrom env r ss := by
  rw [readFrom, h]

/-- The judgement of the last option makes no argument a command. -/
theorem next?_of_settle (h : r.settle = .ok r') (s : String) : l.next? r s = l.next? r' s := by
  obtain ⟨-, hdivided, -, hwaits, hwaits'⟩ := Reading.settled h
  unfold next?
  rw [hdivided, hwaits, hwaits']

/-- Nor does it change what may stand free. -/
theorem free_of_settle (h : r.settle = .ok r') (s : String) : l.free r s = l.free r' s := by
  obtain ⟨hsettled, hdivided, hemail, -, -⟩ := Reading.settled h
  unfold free
  rw [h, hsettled, hdivided, hemail]

/-- An invocation is finished in the same way if the last option has been judged. -/
theorem finish_of_settle (h : r.settle = .ok r') (below : Option Invocation) :
    l.finish env r below = l.finish env r' below := by
  unfold finish
  rw [h, (Reading.settled h).1]

/-- A word that looks like no option is a free value, unless an option waits for it. -/
theorem step_plain {s : String} (hs : Argument.ofText s = .plain) (hdivided : r.divided = false)
    (hwaits : r.waits = false) : l.step r s = l.free r s := by
  unfold step
  simp only [hdivided, hs, Bool.false_eq_true, if_false]
  split
  · next hpending => simp [Reading.waits, hpending] at hwaits
  · rfl

/-- Nothing but a divider is read before the last option is judged. -/
theorem step_of_settle (h : r.settle = .ok r') (s : String) :
    l.step r s = l.step r' s ∨
      l.step r s = .ok { r with divided := true } ∧
        l.step r' s = .ok { r' with divided := true } := by
  obtain ⟨-, hdivided, -, hwaits, hwaits'⟩ := Reading.settled h
  cases hr : r.divided with
  | true =>
    left
    simp only [step, hdivided, hr, if_true]
    exact free_of_settle h s
  | false =>
    have hr' : r'.divided = false := hdivided.trans hr
    -- Options and plain words judge the last option first; only a divider leaves it for later.
    cases hs : Argument.ofText s with
    | divider => exact .inr (by simp only [step, hr, hr', hs]; exact ⟨rfl, rfl⟩)
    | long name value =>
      left
      simp only [step, hr, hr', hs, Reading.option_of_settle h, Bool.false_eq_true, if_false]
    | short c rest =>
      left
      simp only [step, hr, hr', hs, Reading.option_of_settle h, Bool.false_eq_true, if_false]
    | plain =>
      left
      rw [step_plain hs hr hwaits, step_plain hs hr' hwaits', free_of_settle h]

/-- The last option may be judged before the arguments behind it are read. -/
theorem readFrom_of_settle (h : r.settle = .ok r') :
    l.readFrom env r args = l.readFrom env r' args := by
  -- By induction on the arguments: a divider keeps the two readings apart, any other step joins
  -- them.
  induction args generalizing r r' with
  | nil => exact finish_of_settle h none
  | cons s ss ih =>
    unfold readFrom
    rw [next?_of_settle h]
    split
    · simp only [finish_of_settle h]
    · rcases step_of_settle (l := l) h s with hstep | ⟨hstep, hstep'⟩
      · rw [hstep]
      · rw [hstep, hstep']
        apply ih
        rw [Reading.settle_divided, h]
        rfl

/-- No invocation is finished if the last option is refused. -/
theorem finish_of_settle_error {e : UsageError} (h : r.settle = .error e)
    (below : Option Invocation) : l.finish env r below = .error e := by
  unfold finish
  rw [h]
  rfl

/-- Where the last option is refused, what stands behind it is read as a divider or not at all. -/
theorem step_of_settle_error {e : UsageError} {s : String}
    (hlast : Argument.ofText s = .plain → r.waits = false ∨ r.divided = true)
    (h : r.settle = .error e) (hstep : l.step r s = .ok r') :
    r' = { r with divided := true } := by
  -- Whatever judges the last option fails with it.
  have hfree : l.free r s ≠ .ok r' := by
    unfold free
    rw [h]
    split
    · exact nofun
    · split
      · exact nofun
      · split <;> exact nofun
  have hoption : ∀ m value, r.option l m value ≠ .ok r' := by
    intro m value
    rw [Reading.option_of_settle_error h]
    exact nofun
  cases hr : r.divided with
  | true =>
    simp only [step, hr, if_true] at hstep
    exact absurd hstep hfree
  | false =>
    cases hs : Argument.ofText s with
    | divider => simpa [step, hr, hs, eq_comm] using hstep
    | long name value =>
      simp only [step, hr, hs, Bool.false_eq_true, if_false] at hstep
      split at hstep
      · cases hstep
      · split at hstep
        · cases hstep
        · exact absurd hstep (hoption _ _)
    | short c rest =>
      simp only [step, hr, hs, Bool.false_eq_true, if_false] at hstep
      split at hstep
      · cases hstep
      · exact absurd hstep (hoption _ _)
    | plain =>
      rw [step_plain hs hr ((hlast hs).resolve_right (by simp [hr]))] at hstep
      exact absurd hstep hfree

/-- Where the last option is refused, nothing comes of the arguments behind it. -/
theorem readFrom_ne_ok {e : UsageError} (hlast : r.waits = false ∨ r.divided = true)
    (h : r.settle = .error e) : l.readFrom env r args ≠ .ok i := by
  -- By induction on the arguments: behind a divider the last option is refused as before.
  induction args generalizing r with
  | nil =>
    unfold readFrom
    rw [finish_of_settle_error h]
    exact nofun
  | cons s ss ih =>
    unfold readFrom
    split
    · split
      · exact nofun
      · intro hread
        obtain ⟨_, -, hread⟩ := bind_eq_ok_iff.1 hread
        rw [finish_of_settle_error h] at hread
        cases hread
    · intro hread
      obtain ⟨r', hstep, hread⟩ := bind_eq_ok_iff.1 hread
      obtain rfl := step_of_settle_error (fun _ => hlast) h hstep
      refine ih (r := { r with divided := true }) (.inr rfl) ?_ hread
      rw [Reading.settle_divided, h]
      rfl

/-- Where no option waits for its value, the last one may be judged before more is read. -/
theorem readFrom_eq_ok_iff_settle (hwaits : r.waits = false) :
    l.readFrom env r args = .ok i ↔
      ∃ r', r.settle = .ok r' ∧ l.readFrom env r' args = .ok i := by
  cases h : r.settle with
  | error e => exact iff_of_false (readFrom_ne_ok (.inl hwaits) h) nofun
  | ok r' =>
    rw [readFrom_of_settle h]
    simp

/-! ## Reading options -/

section Options

variable {given : List (Parameter × String)} {p : Parameter} {v s : String} {ss : List String}

/-- An option that waits for its value takes the next word, if that looks like no option. -/
theorem readFrom_waiting_iff :
    l.readFrom env { given, pending := some (p, none) } args = .ok i ↔
      ∃ v ss, args = v :: ss ∧ Argument.Plain v ∧ given.lookup p = none ∧ p.objection? v = none ∧
        l.readFrom env { given := given ++ [(p, v)] } ss = .ok i := by
  have hsettle : ({ given, pending := some (p, none) } : Reading).settle = .error .missingValue :=
    rfl
  cases args with
  | nil =>
    unfold readFrom
    rw [finish_of_settle_error hsettle]
    exact iff_of_false nofun nofun
  | cons s ss =>
    have hnext : l.next? { given, pending := some (p, none) } s = none := rfl
    rw [readFrom_cons hnext]
    -- A plain argument is the value, which is judged with the next argument.
    by_cases hs : Argument.ofText s = .plain
    · have hstep : l.step { given, pending := some (p, none) } s =
          .ok { given, pending := some (p, some s) } := by
        simp [step, hs]
      have hlast : ({ given, pending := some (p, some s) } : Reading).settle =
          ({ given } : Reading).take p s := rfl
      rw [hstep]
      change l.readFrom env { given, pending := some (p, some s) } ss = .ok i ↔ _
      rw [readFrom_eq_ok_iff_settle rfl, hlast]
      simp only [Reading.take_eq_ok_iff]
      constructor
      · rintro ⟨_, ⟨hgiven, hv, rfl⟩, hread⟩
        exact ⟨s, ss, rfl, Argument.looks_plain_iff.2 hs, hgiven, hv, hread⟩
      · rintro ⟨_, _, heq, -, hgiven, hv, hread⟩
        cases heq
        exact ⟨_, ⟨hgiven, hv, rfl⟩, hread⟩
    · -- Nothing else can stand behind an option that waits.
      refine iff_of_false (fun hread => ?_) ?_
      · obtain ⟨r', hstep, hread⟩ := bind_eq_ok_iff.1 hread
        obtain rfl := step_of_settle_error (fun h => absurd h hs) hsettle hstep
        exact readFrom_ne_ok (.inr rfl) (by rfl) hread
      · rintro ⟨_, _, heq, hplain, -⟩
        cases heq
        exact hs (Argument.looks_plain_iff.1 hplain)

/-- A word that looks like an option names no command. -/
theorem next?_eq_none (hs : Argument.ofText s ≠ .plain) : l.next? r s = none := by
  unfold next?
  split
  · rfl
  · cases hcommand : l.command? s with
    | none => rfl
    | some below => exact absurd (Argument.looks_plain_iff.1 (plain_of_command? hcommand)) hs

/-- A value that is taken has to be fine, and the others are read with it. -/
theorem readFrom_take_iff :
    (({ given } : Reading).take p v >>= fun r => l.readFrom env r args) = .ok i ↔
      given.lookup p = none ∧ p.objection? v = none ∧
        l.readFrom env { given := given ++ [(p, v)] } args = .ok i := by
  simp only [bind_eq_ok_iff, Reading.take_eq_ok_iff]
  constructor
  · rintro ⟨_, ⟨hgiven, hv, rfl⟩, hread⟩
    exact ⟨hgiven, hv, hread⟩
  · rintro ⟨hgiven, hv, hread⟩
    exact ⟨_, ⟨hgiven, hv, rfl⟩, hread⟩

variable {value : Option String}

/-- A switch is read alone and is on from there. -/
theorem readFrom_switch_iff (hs : Argument.ofText s ≠ .plain) (hswitch : p.isSwitch = true)
    (hstep : l.step { given } s = ({ given } : Reading).option l (.give p) value) :
    l.readFrom env { given } (s :: args) = .ok i ↔
      given.lookup p = none ∧ p.objection? Parameter.onText = none ∧
        l.readFrom env { given := given ++ [(p, Parameter.onText)] } args = .ok i := by
  have hoption : ({ given } : Reading).option l (.give p) value =
      ({ given } : Reading).take p Parameter.onText := by
    simp only [Reading.option, Reading.settle, hswitch, if_true]
    rfl
  rw [readFrom_cons (next?_eq_none hs), hstep, hoption, readFrom_take_iff]

/-- An option with its value in the same argument is read alone. -/
theorem readFrom_value_iff (hs : Argument.ofText s ≠ .plain) (hswitch : p.isSwitch = false)
    (hstep : l.step { given } s = ({ given } : Reading).option l (.give p) (some v)) :
    l.readFrom env { given } (s :: args) = .ok i ↔
      given.lookup p = none ∧ p.objection? v = none ∧
        l.readFrom env { given := given ++ [(p, v)] } args = .ok i := by
  have hoption : ({ given } : Reading).option l (.give p) (some v) =
      ({ given } : Reading).take p v := by
    simp only [Reading.option, Reading.settle, hswitch, Bool.false_eq_true, if_false]
    rfl
  rw [readFrom_cons (next?_eq_none hs), hstep, hoption, readFrom_take_iff]

/-- An option that waits for its value is read with the argument behind it, which must be plain. -/
theorem readFrom_apart_iff (hs : Argument.ofText s ≠ .plain) (hswitch : p.isSwitch = false)
    (hstep : l.step { given } s = ({ given } : Reading).option l (.give p) none) :
    l.readFrom env { given } (s :: args) = .ok i ↔
      ∃ v ss, args = v :: ss ∧ Argument.Plain v ∧ given.lookup p = none ∧ p.objection? v = none ∧
        l.readFrom env { given := given ++ [(p, v)] } ss = .ok i := by
  have hoption : ({ given } : Reading).option l (.give p) none =
      .ok { given, pending := some (p, none) } := by
    simp only [Reading.option, Reading.settle, hswitch, Bool.false_eq_true, if_false]
    rfl
  rw [readFrom_cons (next?_eq_none hs), hstep, hoption]
  exact readFrom_waiting_iff

/-- A long name stands for its parameter. -/
theorem step_long {name : String} (hs : Argument.ofText s = .long name value)
    (hname : l.option? name = some (.give p)) (hvalue : value.isSome = true → p.isSwitch = false) :
    l.step { given } s = ({ given } : Reading).option l (.give p) value := by
  have hwanted : (value.isSome && !(Meaning.give p).takesValue) = false := by
    cases value with
    | none => rfl
    | some v => simp [Meaning.takesValue, hvalue rfl]
  simp only [step, hs, hname, hwanted, Bool.false_eq_true, if_false]

/-- A letter stands for its parameter, and what is attached to it for the value. -/
theorem step_short {c : Char} {cs : List Char} (hs : Argument.ofText s = .short c cs)
    (hc : l.letterOption? c = some (.give p)) :
    l.step { given } s = ({ given } : Reading).option l (.give p) (attached? cs) := by
  simp only [step, hs, hc, Bool.false_eq_true, if_false]

/-- What comes of words that give a value to a parameter of a level. -/
theorem readFrom_gives_iff {words : List String} (hp : p ∈ l.parameters) (h : Gives p v words) :
    l.readFrom env { given } (words ++ args) = .ok i ↔
      given.lookup p = none ∧ p.objection? v = none ∧
        l.readFrom env { given := given ++ [(p, v)] } args = .ok i := by
  have hname : l.option? p.longName = some (.give p) := option?_eq_give_iff.2 ⟨hp, rfl⟩
  have hletter : ∀ {c}, p.letter? = some c → l.letterOption? c = some (.give p) := fun hc =>
    letterOption?_eq_give_iff.2 ⟨hp, hc⟩
  -- Where the value is the next word, there is one, and it looks like no option.
  have hapart : ∀ {Q : String → List String → Prop}, Argument.Plain v →
      ((∃ w ss, v :: args = w :: ss ∧ Argument.Plain w ∧ Q w ss) ↔ Q v args) := by
    intro Q hv
    constructor
    · rintro ⟨_, _, heq, -, h⟩
      cases heq
      exact h
    · exact fun h => ⟨v, args, rfl, hv, h⟩
  cases h with
  | switch h =>
    have hs := p.ofText_longName
    exact readFrom_switch_iff (by rw [hs]; exact nofun) h (step_long hs hname (by simp))
  | equals h v =>
    have hs := p.ofText_longName_equals v
    exact readFrom_value_iff (by rw [hs]; exact nofun) h (step_long hs hname (by simp [h]))
  | apart h hv =>
    have hs := p.ofText_longName
    exact (readFrom_apart_iff (by rw [hs]; exact nofun) h (step_long hs hname (by simp))).trans
      (hapart hv)
  | letterApart hc hv =>
    have hs := Parameter.ofText_letter hc []
    exact (readFrom_apart_iff (by rw [hs]; exact nofun) (Parameter.isSwitch_of_letter? hc)
      (step_short hs (hletter hc))).trans (hapart hv)
  | letterEquals hc v =>
    have hs := Parameter.ofText_letter hc ('=' :: v.toList)
    have hv : attached? ('=' :: v.toList) = some v := attached?_eq_some_iff.2 (.inl rfl)
    have hstep : l.step { given } _ = _ := step_short hs (hletter hc)
    rw [hv] at hstep
    exact readFrom_value_iff (by rw [hs]; exact nofun) (Parameter.isSwitch_of_letter? hc) hstep
  | letterAttached hc hne hv =>
    have hs := Parameter.ofText_letter hc v.toList
    have hv : attached? v.toList = some v :=
      attached?_eq_some_iff.2 (.inr ⟨rfl, by simpa using hne, hv⟩)
    have hstep : l.step { given } _ = _ := step_short hs (hletter hc)
    rw [hv] at hstep
    exact readFrom_value_iff (by rw [hs]; exact nofun) (Parameter.isSwitch_of_letter? hc) hstep

/-- An option that is read is that of a parameter. -/
private theorem exists_give {m : Meaning} (h : r.option l m value = .ok r') : ∃ p, m = .give p := by
  cases m with
  | give p => exact ⟨p, rfl⟩
  | help =>
    obtain ⟨_, -, h⟩ := bind_eq_ok_iff.1 h
    cases h
  | version =>
    obtain ⟨_, -, h⟩ := bind_eq_ok_iff.1 h
    cases h

/-- A long name that is read is that of a parameter of the level. -/
theorem exists_of_step_long {name : String} (hdivided : r.divided = false)
    (hs : Argument.ofText s = .long name value) (h : l.step r s = .ok r') :
    ∃ p ∈ l.parameters, p.longName = name ∧ (value.isSome = true → p.isSwitch = false) := by
  simp only [step, hdivided, hs, Bool.false_eq_true, if_false] at h
  cases hm : l.option? name with
  | none =>
    rw [hm] at h
    cases h
  | some m =>
    simp only [hm] at h
    split at h
    · cases h
    · next hwanted =>
      obtain ⟨p, rfl⟩ := exists_give h
      obtain ⟨hp, hname⟩ := option?_eq_give_iff.1 hm
      refine ⟨p, hp, hname, fun hvalue => ?_⟩
      simpa [hvalue, Meaning.takesValue] using hwanted

/-- A letter that is read is that of a parameter of the level. -/
theorem exists_of_step_short {c : Char} {cs : List Char} (hdivided : r.divided = false)
    (hs : Argument.ofText s = .short c cs) (h : l.step r s = .ok r') :
    ∃ p ∈ l.parameters, p.letter? = some c := by
  simp only [step, hdivided, hs, Bool.false_eq_true, if_false] at h
  cases hm : l.letterOption? c with
  | none =>
    rw [hm] at h
    cases h
  | some m =>
    simp only [hm] at h
    obtain ⟨p, rfl⟩ := exists_give h
    obtain ⟨hp, hc⟩ := letterOption?_eq_give_iff.1 hm
    exact ⟨p, hp, hc⟩

/-- Arguments that are read begin with a step, unless the first names a command. -/
theorem exists_step (hs : Argument.ofText s ≠ .plain) (h : l.readFrom env r (s :: ss) = .ok i) :
    ∃ r', l.step r s = .ok r' := by
  rw [readFrom_cons (next?_eq_none hs)] at h
  obtain ⟨r', hstep, -⟩ := bind_eq_ok_iff.1 h
  exact ⟨r', hstep⟩

/-- The options of a level without parameters are over. -/
theorem over_of_readFrom (hnone : l.parameters = []) (hdivided : r.divided = false)
    (h : l.readFrom env r args = .ok i) : Over args := by
  intro s hs
  obtain ⟨ss, rfl⟩ := List.head?_eq_some_iff.1 hs
  obtain ⟨a, ha⟩ := Argument.exists_looks s
  have hs := ha.ofText_eq
  have hstep : a ≠ .plain → ∃ r', l.step r s = .ok r' := fun hne => exists_step (hs ▸ hne) h
  cases ha with
  | divider => exact .inl rfl
  | plain hplain => exact .inr hplain
  | long _ _ | longWith _ _ =>
    obtain ⟨r', hstep⟩ := hstep nofun
    obtain ⟨p, hp, -⟩ := exists_of_step_long hdivided hs hstep
    simp [hnone] at hp
  | short _ _ =>
    obtain ⟨r', hstep⟩ := hstep nofun
    obtain ⟨p, hp, -⟩ := exists_of_step_short hdivided hs hstep
    simp [hnone] at hp

/-- Arguments that are read begin with words that give a value to a parameter of the level, or its
    options are over. -/
theorem gives_of_readFrom (h : l.readFrom env { given } (s :: ss) = .ok i) :
    (s = "--" ∨ Argument.Plain s) ∨
      ∃ p v words rest, s :: ss = words ++ rest ∧ words ≠ [] ∧ p ∈ l.parameters ∧
        Gives p v words := by
  obtain ⟨a, ha⟩ := Argument.exists_looks s
  have hs := ha.ofText_eq
  have hstep : a ≠ .plain → ∃ r', l.step { given } s = .ok r' := fun hne => exists_step (hs ▸ hne) h
  -- By what the argument looks like: each look is that of one way to give an option.
  cases ha with
  | divider => exact .inl (.inl rfl)
  | plain hplain => exact .inl (.inr hplain)
  | @long name hname hequals =>
    right
    obtain ⟨r', hstep⟩ := hstep nofun
    obtain ⟨p, hp, rfl, hwanted⟩ := exists_of_step_long rfl hs hstep
    cases hswitch : p.isSwitch with
    | true => exact ⟨p, _, _, ss, rfl, List.cons_ne_nil _ _, hp, .switch hswitch⟩
    | false =>
      obtain ⟨v, ss, rfl, hv, -⟩ := (readFrom_apart_iff (by rw [hs]; exact nofun) hswitch
        (step_long hs (option?_eq_give_iff.2 ⟨hp, rfl⟩) hwanted)).1 h
      exact ⟨p, v, _, ss, rfl, List.cons_ne_nil _ _, hp, .apart hswitch hv⟩
  | @longWith name hequals v =>
    right
    obtain ⟨r', hstep⟩ := hstep nofun
    obtain ⟨p, hp, rfl, hwanted⟩ := exists_of_step_long rfl hs hstep
    exact ⟨p, v, _, ss, rfl, List.cons_ne_nil _ _, hp, .equals (hwanted rfl) v⟩
  | @short c hc cs =>
    right
    obtain ⟨r', hstep⟩ := hstep nofun
    obtain ⟨p, hp, hletter⟩ := exists_of_step_short rfl hs hstep
    have hstep : l.step { given } _ = _ :=
      step_short hs (letterOption?_eq_give_iff.2 ⟨hp, hletter⟩)
    -- A letter has its value behind it, attached or apart.
    cases hvalue : attached? cs with
    | none =>
      obtain rfl : cs = [] := by
        unfold attached? at hvalue
        split at hvalue
        · rfl
        · cases hvalue
        · cases hvalue
      rw [hvalue] at hstep
      obtain ⟨v, ss, rfl, hv, -⟩ := (readFrom_apart_iff (by rw [hs]; exact nofun)
        (Parameter.isSwitch_of_letter? hletter) hstep).1 h
      exact ⟨p, v, _, ss, rfl, List.cons_ne_nil _ _, hp, .letterApart hletter hv⟩
    | some v =>
      rcases attached?_eq_some_iff.1 hvalue with rfl | ⟨rfl, hne, hhead⟩
      · exact ⟨p, v, _, ss, rfl, List.cons_ne_nil _ _, hp, .letterEquals hletter v⟩
      · exact ⟨p, v, _, ss, rfl, List.cons_ne_nil _ _, hp,
          .letterAttached hletter (by simpa using hne) hhead⟩

end Options

end Level

/-! ## Lines -/

/-- Words that give values to some of the parameters, one after the other. -/
inductive Options (parameters : List Parameter) : List (Parameter × String) → List String → Prop
  | nil : Options parameters [] []
  | cons {p : Parameter} {v : String} {options : List (Parameter × String)}
    {words rest : List String} (hp : p ∈ parameters) (hgives : Gives p v words)
    (hrest : Options parameters options rest) :
    Options parameters ((p, v) :: options) (words ++ rest)

namespace Level

variable {env : Environment} {l : Level} {args words : List String} {i : Invocation}
  {given options : List (Parameter × String)}

/-- What comes of options of a level and the arguments behind them. -/
theorem readFrom_options_iff (hgiven : Kept given) (h : Options l.parameters options words) :
    l.readFrom env { given } (words ++ args) = .ok i ↔
      Kept (given ++ options) ∧ l.readFrom env { given := given ++ options } args = .ok i := by
  -- By induction on the options, whatever was given before them.
  induction h generalizing given with
  | nil => simp [hgiven]
  | @cons p v options words rest hp hgives hrest ih =>
    rw [List.append_assoc, readFrom_gives_iff hp hgives, List.append_cons given (p, v) options]
    constructor
    · rintro ⟨hlookup, hv, hread⟩
      exact (ih (kept_snoc_iff.2 ⟨hgiven, hlookup, hv⟩)).1 hread
    · rintro ⟨hkept, hread⟩
      have hkept' := (kept_append_iff.1 hkept).1
      obtain ⟨-, hlookup, hv⟩ := kept_snoc_iff.1 hkept'
      exact ⟨hlookup, hv, (ih hkept').2 ⟨hkept, hread⟩⟩

/-- Arguments that are read begin with options of the level; what follows them is nothing or does
    not look like an option. -/
theorem exists_options (h : l.readFrom env { given } args = .ok i) :
    ∃ options words rest, args = words ++ rest ∧ Options l.parameters options words ∧
      Over rest := by
  -- By induction on the number of arguments, of which an option takes one or two.
  induction hlength : args.length using Nat.strongRecOn generalizing args given with
  | ind n ih =>
    cases args with
    | nil => exact ⟨[], [], [], rfl, .nil, nofun⟩
    | cons s ss =>
      rcases gives_of_readFrom h with hover | ⟨p, v, words, rest, heq, hne, hp, hgives⟩
      · refine ⟨[], [], s :: ss, rfl, .nil, fun s' hs' => ?_⟩
        cases hs'
        exact hover
      · rw [heq, readFrom_gives_iff hp hgives] at h
        have hlt : rest.length < n := by
          have hpos : 0 < words.length := List.length_pos_iff.2 hne
          have hlen := congrArg List.length heq
          rw [List.length_append] at hlen
          omega
        obtain ⟨options, words', rest', rfl, hoptions, hrest⟩ := ih _ hlt h.2.2 rfl
        exact ⟨(p, v) :: options, words ++ words', rest', by rw [heq, List.append_assoc],
          .cons hp hgives hoptions, hrest⟩

end Level

end Gatehouse.CommandLine
