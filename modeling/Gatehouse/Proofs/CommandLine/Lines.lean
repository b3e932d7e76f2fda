import Gatehouse.Proofs.CommandLine.Options

/-!
# Whole command lines

A command line has the options of the program, then a command, then what belongs to the command: the
options of a server, or what is to be done with accounts. Each of these is a `Line`, and no other
arguments are read.

## Key results

- `read_line_iff`: what comes of a line
- `line_of_read`: nothing but a line is read
- `read_eq_ok_iff`: which command lines are read, and as what
- `line_iff_of_read`: a command line that is read is a line in one way only
-/

namespace Gatehouse.CommandLine

/-! ### The ends of levels -/

/-- Whether the environment can stand for the parameters that are not given. -/
def Fits (env : Environment) (parameters : List Parameter) (given : List (Parameter × String)) :
    Prop :=
  ∀ p ∈ parameters, given.lookup p = none → ∀ v, env p.variableName = some v → p.objection? v = none

namespace Level

variable {env : Environment} {l : Level} {i i' : Invocation} {given : List (Parameter × String)}
  {r r' : Reading} {s : String}

/-- A level accepts the variables that stand in for options that are not given. -/
theorem judge_eq_ok_iff : l.judge env r = .ok () ↔ Fits env l.parameters r.given := by
  have hfits : (l.parameters.filter fun p => (r.given.lookup p).isNone).findSome?
      (fun p => (env p.variableName).bind p.objection?) = none ↔ Fits env l.parameters r.given := by
    simp only [List.findSome?_eq_none_iff, List.mem_filter, and_imp, Option.isNone_iff_eq_none,
      Option.bind_eq_none_iff]
    rfl
  rw [← hfits]
  unfold judge
  simp only
  split
  · next e he => simp [he]
  · next he => simp [he]

/-- A level with another one below it puts its own options in front of those below. -/
theorem finish_some_iff :
    l.finish env { given } (some i') = .ok i ↔
      Fits env l.parameters given ∧ i = { i' with given := given ++ i'.given } := by
  have hfinish : l.finish env { given } (some i') =
      (l.judge env { given } >>= fun _ => .ok { i' with given := given ++ i'.given }) := rfl
  rw [hfinish, bind_eq_ok_iff, ← judge_eq_ok_iff (r := { given })]
  constructor
  · rintro ⟨⟨⟩, hjudge, heq⟩
    cases heq
    exact ⟨hjudge, rfl⟩
  · rintro ⟨hjudge, rfl⟩
    exact ⟨(), hjudge, rfl⟩

/-- The last level makes its command of what was read. -/
theorem finish_none_iff (hpending : r.pending = none) :
    l.finish env r none = .ok i ↔
      Fits env l.parameters r.given ∧ ∃ c, l.command r = some c ∧ i = ⟨c, r.given⟩ := by
  have hsettle : r.settle = .ok r := by
    unfold Reading.settle
    rw [hpending]
  rw [← judge_eq_ok_iff]
  unfold finish
  rw [hsettle]
  constructor
  · intro h
    obtain ⟨_, hr, h⟩ := bind_eq_ok_iff.1 h
    cases hr
    obtain ⟨⟨⟩, hjudge, h⟩ := bind_eq_ok_iff.1 h
    refine ⟨hjudge, ?_⟩
    cases hcommand : l.command r with
    | some c =>
      rw [hcommand] at h
      cases h
      exact ⟨c, rfl, rfl⟩
    | none =>
      rw [hcommand] at h
      cases h
  · rintro ⟨hjudge, c, hcommand, rfl⟩
    exact bind_eq_ok_iff.2 ⟨r, rfl, bind_eq_ok_iff.2 ⟨(), hjudge, by simp only [hcommand]⟩⟩

/-- A word behind a divider is the free value of the level. -/
theorem free_eq_ok_iff (hpending : r.pending = none) :
    l.free r s = .ok r' ↔
      l.takesEmail = true ∧ r.email = none ∧ r' = { r with email := some s } := by
  have hsettle : r.settle = .ok r := by
    unfold Reading.settle
    rw [hpending]
  unfold free
  rw [hsettle]
  split
  · next h =>
    simp only [Bool.and_eq_true, Option.isNone_iff_eq_none] at h
    constructor
    · intro heq
      cases heq
      exact ⟨h.1, h.2, rfl⟩
    · rintro ⟨-, -, rfl⟩
      rfl
  · next h =>
    simp only [Bool.and_eq_true, Option.isNone_iff_eq_none] at h
    refine iff_of_false ?_ fun ⟨hemail, hnone, _⟩ => h ⟨hemail, hnone⟩
    split
    · exact nofun
    · split <;> exact nofun

end Level

/-- The words that may stand at the end of a level: none, or a divider. -/
def Closing (words : List String) : Prop := words = [] ∨ words = ["--"]

/-- What closes a line is nothing but a divider, if anything. -/
theorem Closing.over {words : List String} (h : Closing words) : Over words := by
  rcases h with rfl | rfl
  · exact nofun
  · simp [Over]

namespace Level

variable {env : Environment} {l : Level} {args : List String} {i : Invocation}
  {given : List (Parameter × String)} {r : Reading}

/-- Where no free value is wanted any more, nothing stands behind a divider. -/
theorem readFrom_divided_iff (hpending : r.pending = none) (hdivided : r.divided = true)
    (hclosed : l.takesEmail = false ∨ r.email ≠ none) :
    l.readFrom env r args = .ok i ↔ args = [] ∧ l.finish env r none = .ok i := by
  cases args with
  | nil => simp [readFrom]
  | cons s ss =>
    refine iff_of_false (fun h => ?_) (by simp)
    rw [readFrom_cons (by simp [next?, hdivided])] at h
    obtain ⟨r', hstep, -⟩ := bind_eq_ok_iff.1 h
    simp only [step, hdivided, if_true] at hstep
    obtain ⟨hemail, hnone, -⟩ := (free_eq_ok_iff hpending).1 hstep
    rcases hclosed with hclosed | hclosed
    · simp [hclosed] at hemail
    · exact hclosed hnone

/-- The first divider is read as one. -/
theorem step_divider (hdivided : r.divided = false) :
    l.step r "--" = .ok { r with divided := true } := by
  have hs : Argument.ofText "--" = .divider := rfl
  simp [step, hdivided, hs]

/-- A divider at the end changes nothing. -/
theorem finish_divided (hpending : r.pending = none) (b : Bool) :
    l.finish env { r with divided := b } none = .ok i ↔ l.finish env r none = .ok i := by
  have hcommand : l.command { r with divided := b } = l.command r := by
    cases l <;> rfl
  rw [finish_none_iff (r := { r with divided := b }) hpending, finish_none_iff hpending, hcommand]

/-- Where no free value is wanted any more, a level ends. -/
theorem readFrom_closed_iff (hpending : r.pending = none) (hdivided : r.divided = false)
    (hclosed : l.takesEmail = false ∨ r.email ≠ none) (hleaf : l.commands = [])
    (hover : Over args) :
    l.readFrom env r args = .ok i ↔ Closing args ∧ l.finish env r none = .ok i := by
  cases args with
  | nil => simp [readFrom, Closing]
  | cons s ss =>
    have hnext : l.next? r s = none := by
      simp [next?, command?, hleaf]
    rw [readFrom_cons hnext]
    -- What is left begins with a divider, behind which nothing may stand, or with a plain word.
    rcases hover s rfl with rfl | hplain
    · rw [step_divider hdivided]
      change l.readFrom env { r with divided := true } ss = .ok i ↔ _
      rw [readFrom_divided_iff (r := { r with divided := true }) hpending rfl hclosed,
        finish_divided hpending]
      simp [Closing]
    · have hs := Argument.looks_plain_iff.1 hplain
      refine iff_of_false (fun h => ?_) (fun h => ?_)
      · obtain ⟨r', hstep, -⟩ := bind_eq_ok_iff.1 h
        rw [step_plain hs hdivided (by simp [Reading.waits, hpending])] at hstep
        obtain ⟨hemail, hnone, -⟩ := (free_eq_ok_iff hpending).1 hstep
        rcases hclosed with hclosed | hclosed
        · simp [hclosed] at hemail
        · exact hclosed hnone
      · rcases h.1 with hclosing | hclosing
        · cases hclosing
        · cases hclosing
          cases hs

/-- What comes of the arguments of a level that has commands below it, once its options are over. -/
theorem readFrom_commands_iff (hcommand : ∀ r, l.command r = none) (hemail : l.takesEmail = false)
    (hover : Over args) :
    l.readFrom env { given } args = .ok i ↔
      ∃ s ss below i', args = s :: ss ∧ l.command? s = some below ∧ below.isGuide = false ∧
        below.readFrom env {} ss = .ok i' ∧ l.finish env { given } (some i') = .ok i := by
  -- A level that is only a way to others makes no command of its own.
  have hfinish : ∀ {r : Reading}, r.pending = none → l.finish env r none ≠ .ok i := by
    intro r hpending h
    obtain ⟨-, c, hc, -⟩ := (finish_none_iff hpending).1 h
    rw [hcommand] at hc
    cases hc
  cases args with
  | nil => exact iff_of_false (hfinish rfl) (by simp)
  | cons s ss =>
    cases hs : l.command? s with
    | some below =>
      have hnext : l.next? { given } s = some below := hs
      rw [readFrom, hnext]
      simp only
      constructor
      · intro h
        split at h
        · cases h
        · next hguide =>
          obtain ⟨i', hread, h⟩ := bind_eq_ok_iff.1 h
          exact ⟨s, ss, below, i', rfl, hs, by simpa using hguide, hread, h⟩
      · rintro ⟨_, _, _, i', heq, hs', hguide, hread, h⟩
        cases heq
        cases hs.symm.trans hs'
        rw [hguide]
        exact bind_eq_ok_iff.2 ⟨i', hread, h⟩
    | none =>
      refine iff_of_false (fun h => ?_) (fun h => ?_)
      · have hnext : l.next? { given } s = none := hs
        rw [readFrom_cons hnext] at h
        obtain ⟨r', hstep, h⟩ := bind_eq_ok_iff.1 h
        rcases hover s rfl with rfl | hplain
        -- Behind a divider no command can be named any more.
        · rw [step_divider rfl] at hstep
          cases hstep
          rw [readFrom_divided_iff rfl rfl (.inl hemail)] at h
          exact hfinish rfl h.2
        · rw [step_plain (Argument.looks_plain_iff.1 hplain) rfl rfl] at hstep
          have htakes := ((free_eq_ok_iff rfl).1 hstep).1
          simp [hemail] at htakes
      · obtain ⟨_, _, _, _, heq, hs', -⟩ := h
        cases heq
        rw [hs] at hs'
        cases hs'

end Level

/-- The words behind a command that takes an e-mail address. -/
inductive Names : Option String → List String → Prop
  | nothing {words : List String} (h : Closing words) : Names none words
  | plain {email : String} {words : List String} (hplain : Argument.Plain email)
    (h : Closing words) : Names (some email) (email :: words)
  /-- Any word can stand behind a divider. -/
  | divided (email : String) : Names (some email) ["--", email]

namespace Level

variable {env : Environment} {l : Level} {args : List String} {i : Invocation}

/-- What comes of the arguments of a level that takes an e-mail address. -/
theorem readFrom_email_iff (hnone : l.parameters = []) (hleaf : l.commands = [])
    (hemail : l.takesEmail = true) :
    l.readFrom env {} args = .ok i ↔
      ∃ email c, Names email args ∧ l.command { email } = some c ∧ i = ⟨c, []⟩ := by
  have hfinish : ∀ email, l.finish env { email } none = .ok i ↔
      ∃ c, l.command { email } = some c ∧ i = ⟨c, []⟩ := by
    intro email
    rw [finish_none_iff rfl, hnone]
    simp [Fits]
  have hnext : ∀ s, l.next? {} s = none := by
    simp [next?, command?, hleaf]
  -- A word that looks like no option is the address, and a word behind a divider too.
  have hplain : ∀ {s ss}, Argument.Plain s →
      (l.readFrom env {} (s :: ss) = .ok i ↔ l.readFrom env { email := some s } ss = .ok i) := by
    intro s ss hs
    have hstep : l.step {} s = .ok { email := some s } :=
      (step_plain (Argument.looks_plain_iff.1 hs) rfl rfl).trans
        ((free_eq_ok_iff rfl).2 ⟨hemail, rfl, rfl⟩)
    rw [readFrom_cons (hnext s), hstep]
    rfl
  have hdivider : ∀ {ss}, l.readFrom env {} ("--" :: ss) = .ok i ↔
      l.readFrom env { divided := true } ss = .ok i := by
    intro ss
    rw [readFrom_cons (hnext _), step_divider rfl]
    rfl
  have hdivided : ∀ {s ss}, l.readFrom env { divided := true } (s :: ss) = .ok i ↔
      ss = [] ∧ l.finish env { email := some s } none = .ok i := by
    intro s ss
    have hstep : l.step { divided := true } s = .ok { divided := true, email := some s } := by
      have hfree : l.free { divided := true } s = .ok { divided := true, email := some s } :=
        (free_eq_ok_iff rfl).2 ⟨hemail, rfl, rfl⟩
      simp only [step, hfree, if_true]
    rw [readFrom_cons rfl, hstep]
    change l.readFrom env { divided := true, email := some s } ss = .ok i ↔ _
    rw [readFrom_divided_iff rfl rfl (.inr (by simp)),
      ← finish_divided (r := { email := some s }) rfl true]
  constructor
  · intro h
    cases args with
    | nil => exact ⟨none, ((hfinish none).1 h).imp fun c hc => ⟨.nothing (.inl rfl), hc⟩⟩
    | cons s ss =>
      rcases over_of_readFrom hnone rfl h s rfl with rfl | hs
      · rw [hdivider] at h
        cases ss with
        | nil =>
          have hend := (finish_divided (r := {}) rfl true).1 h
          exact ⟨none, ((hfinish none).1 hend).imp fun c hc => ⟨.nothing (.inr rfl), hc⟩⟩
        | cons s ss =>
          obtain ⟨rfl, hend⟩ := hdivided.1 h
          exact ⟨some s, ((hfinish (some s)).1 hend).imp fun c hc => ⟨.divided s, hc⟩⟩
      · rw [hplain hs] at h
        obtain ⟨hclosing, hend⟩ := (readFrom_closed_iff rfl rfl (.inr (by simp)) hleaf
          (over_of_readFrom hnone rfl h)).1 h
        exact ⟨some s, ((hfinish (some s)).1 hend).imp fun c hc => ⟨.plain hs hclosing, hc⟩⟩
  · rintro ⟨email, c, hnames, hc⟩
    have hend := (hfinish email).2 ⟨c, hc⟩
    cases hnames with
    | nothing hclosing =>
      rcases hclosing with rfl | rfl
      · exact hend
      · exact hdivider.2 ((finish_divided (r := {}) rfl true).2 hend)
    | plain hs hclosing =>
      exact (hplain hs).2 ((readFrom_closed_iff rfl rfl (.inr (by simp)) hleaf hclosing.over).2
        ⟨hclosing, hend⟩)
    | divided email => exact hdivider.2 (hdivided.2 ⟨rfl, hend⟩)

end Level

/-- The words behind `accounts`. -/
inductive Asks : AccountCommand → List String → Prop
  | list {words : List String} (h : Closing words) : Asks .list ("list" :: words)
  | create {email : Option String} {words : List String} (h : Names email words) :
    Asks (.create email) ("create" :: words)
  | display {email : Option String} {words : List String} (h : Names email words) :
    Asks (.display email) ("display" :: words)
  | delete {email : Option String} {words : List String} (h : Names email words) :
    Asks (.delete email) ("delete" :: words)

/-- A whole command line: the options of the program, a command, and what belongs to it. -/
inductive Line : Command → List (Parameter × String) → List String → Prop
  | serve {general own : List (Parameter × String)} {words ownWords ending : List String}
    (hgeneral : Options Parameter.general general words)
    (hown : Options Parameter.ofServer own ownWords) (hclosing : Closing ending) :
    Line .serve (general ++ own) (words ++ "runserver" :: (ownWords ++ ending))
  | accounts {general : List (Parameter × String)} {words rest : List String} {c : AccountCommand}
    (hgeneral : Options Parameter.general general words) (hasks : Asks c rest) :
    Line (.accounts c) general (words ++ "accounts" :: rest)

/-- The parameters that a command has options for. -/
def Command.parameters : Command → List Parameter
  | serve => Parameter.general ++ Parameter.ofServer
  | accounts _ => Parameter.general

namespace Level

variable {env : Environment} {args words : List String} {i : Invocation}

/-- What comes of the arguments of a server. -/
theorem readFrom_runserver_iff {own : List (Parameter × String)} {ending : List String}
    (hown : Options Parameter.ofServer own words) (hclosing : Closing ending) :
    runserver.readFrom env {} (words ++ ending) = .ok i ↔
      Kept own ∧ Fits env Parameter.ofServer own ∧ i = ⟨.serve, own⟩ := by
  have hend := @readFrom_closed_iff env runserver ending i { given := own } rfl rfl (.inl rfl) rfl
    hclosing.over
  rw [readFrom_options_iff (l := runserver) kept_nil hown, List.nil_append, hend,
    finish_none_iff rfl]
  simp [command, parameters, hclosing]

/-- What is read for the server is its options and what closes the line. -/
theorem exists_options_runserver (h : runserver.readFrom env {} args = .ok i) :
    ∃ own words ending, args = words ++ ending ∧ Options Parameter.ofServer own words ∧
      Closing ending := by
  obtain ⟨own, words, ending, rfl, hown, hover⟩ := exists_options h
  obtain ⟨-, h⟩ := (readFrom_options_iff (l := runserver) kept_nil hown).1 h
  exact ⟨own, words, ending, rfl, hown,
    ((readFrom_closed_iff rfl rfl (.inl rfl) rfl hover).1 h).1⟩

/-- Behind the command to list nothing is read but what closes the line. -/
theorem readFrom_list_iff :
    list.readFrom env {} args = .ok i ↔ Closing args ∧ i = ⟨.accounts .list, []⟩ := by
  have hend : list.finish env {} none = .ok i ↔ i = ⟨.accounts .list, []⟩ := by
    rw [finish_none_iff rfl]
    simp [command, parameters, Fits]
  constructor
  · intro h
    have hover := over_of_readFrom rfl rfl h
    rw [← hend]
    exact (readFrom_closed_iff rfl rfl (.inl rfl) rfl hover).1 h
  · rintro ⟨hclosing, hi⟩
    exact (readFrom_closed_iff rfl rfl (.inl rfl) rfl hclosing.over).2
      ⟨hclosing, hend.2 hi⟩

/-- What comes of the arguments behind `accounts`. -/
theorem readFrom_accounts_iff :
    accounts.readFrom env {} args = .ok i ↔ ∃ c, Asks c args ∧ i = ⟨.accounts c, []⟩ := by
  have hfinish : ∀ {i'}, accounts.finish env {} (some i') = .ok i ↔ i = i' := by
    intro i'
    rw [finish_some_iff]
    simp [parameters, Fits]
  have hcommands := @readFrom_commands_iff env accounts args i [] (fun _ => rfl) rfl
  constructor
  · intro h
    have hover := over_of_readFrom rfl rfl h
    obtain ⟨s, ss, below, i', rfl, hs, hguide, hread, h⟩ := (hcommands hover).1 h
    obtain rfl := hfinish.1 h
    have hmem := mem_commands_of_command? hs
    simp only [commands, List.mem_cons, List.not_mem_nil, or_false, Prod.mk.injEq] at hmem
    -- One case for each command below, the last of which is a guide to the others.
    rcases hmem with ⟨rfl, rfl⟩ | ⟨rfl, rfl⟩ | ⟨rfl, rfl⟩ | ⟨rfl, rfl⟩ | ⟨rfl, rfl⟩
    · obtain ⟨hclosing, rfl⟩ := readFrom_list_iff.1 hread
      exact ⟨_, .list hclosing, rfl⟩
    · obtain ⟨email, c, hnames, hc, rfl⟩ := (readFrom_email_iff rfl rfl rfl).1 hread
      cases hc
      exact ⟨_, .create hnames, rfl⟩
    · obtain ⟨email, c, hnames, hc, rfl⟩ := (readFrom_email_iff rfl rfl rfl).1 hread
      cases hc
      exact ⟨_, .display hnames, rfl⟩
    · obtain ⟨email, c, hnames, hc, rfl⟩ := (readFrom_email_iff rfl rfl rfl).1 hread
      cases hc
      exact ⟨_, .delete hnames, rfl⟩
    · cases hguide
  · rintro ⟨c, hasks, rfl⟩
    have hover : Over args := by
      cases hasks <;> exact fun s hs => .inr (by cases hs; decide)
    refine (hcommands hover).2 ?_
    cases hasks with
    | list hclosing =>
      exact ⟨_, _, _, _, rfl, rfl, rfl, readFrom_list_iff.2 ⟨hclosing, rfl⟩, hfinish.2 rfl⟩
    | create hnames | display hnames | delete hnames =>
      exact ⟨_, _, _, _, rfl, rfl, rfl,
        (readFrom_email_iff rfl rfl rfl).2 ⟨_, _, hnames, rfl, rfl⟩, hfinish.2 rfl⟩

end Level

/-! ### Whole lines -/

section Line

variable {env : Environment} {general own : List (Parameter × String)}

/-- Options are those of their level. -/
theorem Options.mem {parameters : List Parameter} {options : List (Parameter × String)}
    {words : List String} (h : Options parameters options words) :
    ∀ o ∈ options, o.1 ∈ parameters := by
  induction h with
  | nil => exact nofun
  | cons hp _ _ ih =>
    rw [List.forall_mem_cons]
    exact ⟨hp, ih⟩

/-- No parameter belongs to the program and to a server. -/
theorem general_ne_ofServer : ∀ p ∈ Parameter.general, ∀ q ∈ Parameter.ofServer, p ≠ q := by
  decide

/-- The variables of two levels fit if those of each fit. -/
theorem fits_append_iff (hgeneral : ∀ o ∈ general, o.1 ∈ Parameter.general)
    (hown : ∀ o ∈ own, o.1 ∈ Parameter.ofServer) :
    Fits env (Parameter.general ++ Parameter.ofServer) (general ++ own) ↔
      Fits env Parameter.general general ∧ Fits env Parameter.ofServer own := by
  -- No parameter belongs to both levels, so each is looked up among the options of its own.
  have hleft : ∀ p ∈ Parameter.general, (general ++ own).lookup p = general.lookup p := by
    intro p hp
    have hnone : own.lookup p = none := by
      rw [lookup_eq_none_iff, List.mem_map]
      rintro ⟨o, ho, rfl⟩
      exact general_ne_ofServer _ hp _ (hown o ho) rfl
    rw [List.lookup_append, hnone, Option.or_none]
  have hright : ∀ p ∈ Parameter.ofServer, (general ++ own).lookup p = own.lookup p := by
    intro p hp
    have hnone : general.lookup p = none := by
      rw [lookup_eq_none_iff, List.mem_map]
      rintro ⟨o, ho, rfl⟩
      exact general_ne_ofServer _ (hgeneral o ho) _ hp rfl
    rw [List.lookup_append, hnone, Option.none_or]
  unfold Fits
  simp only [List.mem_append, or_imp, forall_and]
  refine and_congr (forall₂_congr fun p hp => ?_) (forall₂_congr fun p hp => ?_)
  · rw [hleft p hp]
  · rw [hright p hp]

/-- General options and those of the server never speak of the same parameter. -/
theorem kept_server_iff (hgeneral : ∀ o ∈ general, o.1 ∈ Parameter.general)
    (hown : ∀ o ∈ own, o.1 ∈ Parameter.ofServer) :
    Kept (general ++ own) ↔ Kept general ∧ Kept own := by
  rw [kept_append_iff]
  exact and_congr_right fun _ => and_iff_left fun o ho o' ho' =>
    general_ne_ofServer _ (hgeneral o ho) _ (hown o' ho')

end Line

section Read

variable {env : Environment} {args : List String} {i : Invocation} {command : Command}
  {options : List (Parameter × String)}

/-- What comes of the options of the program, a command and the arguments behind it. -/
theorem read_command_iff {general : List (Parameter × String)} {words ss : List String} {s : String}
    {below : Level} (hgeneral : Options Parameter.general general words)
    (hs : Level.program.command? s = some below) (hguide : below.isGuide = false) :
    read env (words ++ s :: ss) = .ok i ↔
      Kept general ∧ Fits env Parameter.general general ∧
        ∃ i', below.readFrom env {} ss = .ok i' ∧ i = { i' with given := general ++ i'.given } := by
  have hover : Over (s :: ss) := by
    intro s' hs'
    cases hs'
    exact .inr (Level.plain_of_command? hs)
  unfold read
  rw [Level.readFrom_options_iff (l := .program) kept_nil hgeneral, List.nil_append,
    Level.readFrom_commands_iff (fun _ => rfl) rfl hover]
  simp only [Level.finish_some_iff]
  constructor
  · rintro ⟨hkept, _, _, below', i', heq, hs', -, hread, hfits, hi⟩
    cases heq
    cases hs.symm.trans hs'
    exact ⟨hkept, hfits, i', hread, hi⟩
  · rintro ⟨hkept, hfits, i', hread, hi⟩
    exact ⟨hkept, s, ss, below, i', rfl, hs, hguide, hread, hfits, hi⟩

/-- What comes of a line. -/
theorem read_line_iff (h : Line command options args) :
    read env args = .ok i ↔
      Kept options ∧ Fits env command.parameters options ∧ i = ⟨command, options⟩ := by
  cases h with
  | @serve general own words ownWords ending hgeneral hown hclosing =>
    rw [read_command_iff hgeneral rfl rfl, kept_server_iff hgeneral.mem hown.mem]
    simp only [Level.readFrom_runserver_iff hown hclosing, Command.parameters,
      fits_append_iff hgeneral.mem hown.mem]
    constructor
    · rintro ⟨hkept, hfits, _, ⟨hkept', hfits', rfl⟩, rfl⟩
      exact ⟨⟨hkept, hkept'⟩, ⟨hfits, hfits'⟩, rfl⟩
    · rintro ⟨⟨hkept, hkept'⟩, ⟨hfits, hfits'⟩, rfl⟩
      exact ⟨hkept, hfits, _, ⟨hkept', hfits', rfl⟩, rfl⟩
  | @accounts _ words rest c hgeneral hasks =>
    have hread : Level.accounts.readFrom env {} rest = .ok ⟨.accounts c, []⟩ :=
      Level.readFrom_accounts_iff.2 ⟨c, hasks, rfl⟩
    rw [read_command_iff hgeneral rfl rfl, hread]
    simp [Command.parameters]

/-- Nothing but a line is read. -/
theorem line_of_read (hread : read env args = .ok i) : Line i.command i.given args := by
  obtain ⟨general, words, rest, rfl, hgeneral, hover⟩ := Level.exists_options hread
  obtain ⟨-, h⟩ := (Level.readFrom_options_iff (l := .program) kept_nil hgeneral).1 hread
  obtain ⟨s, ss, below, -, rfl, hs, hguide, -⟩ :=
    (Level.readFrom_commands_iff (fun _ => rfl) rfl hover).1 h
  obtain ⟨-, -, i', hbelow, rfl⟩ := (read_command_iff hgeneral hs hguide).1 hread
  have hmem := Level.mem_commands_of_command? hs
  simp only [Level.commands, List.mem_cons, List.not_mem_nil, or_false, Prod.mk.injEq] at hmem
  rcases hmem with ⟨rfl, rfl⟩ | ⟨rfl, rfl⟩ | ⟨rfl, rfl⟩
  · obtain ⟨own, ownWords, ending, rfl, hown, hclosing⟩ := Level.exists_options_runserver hbelow
    obtain ⟨-, -, rfl⟩ := (Level.readFrom_runserver_iff hown hclosing).1 hbelow
    exact .serve hgeneral hown hclosing
  · obtain ⟨c, hasks, rfl⟩ := Level.readFrom_accounts_iff.1 hbelow
    rw [List.append_nil]
    exact .accounts hgeneral hasks
  · cases hguide

/-- A command line is read if and only if it is a line whose values can be kept together and are
    completed by the environment. -/
theorem read_eq_ok_iff :
    read env args = .ok i ↔
      Line i.command i.given args ∧ Kept i.given ∧ Fits env i.command.parameters i.given := by
  constructor
  · intro h
    have hline := line_of_read h
    obtain ⟨hkept, hfits, -⟩ := (read_line_iff hline).1 h
    exact ⟨hline, hkept, hfits⟩
  · rintro ⟨hline, hkept, hfits⟩
    exact (read_line_iff hline).2 ⟨hkept, hfits, rfl⟩

/-- A command line that is read is a line in one way only. -/
theorem line_iff_of_read (h : read env args = .ok i) :
    Line command options args ↔ command = i.command ∧ options = i.given := by
  constructor
  · intro hline
    obtain ⟨-, -, rfl⟩ := (read_line_iff hline).1 h
    exact ⟨rfl, rfl⟩
  · rintro ⟨rfl, rfl⟩
    exact line_of_read h

end Read

end Gatehouse.CommandLine
