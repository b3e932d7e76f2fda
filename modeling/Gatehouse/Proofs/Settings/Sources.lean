import Gatehouse.Program
import Gatehouse.Proofs.CommandLine.Lines
import Gatehouse.Proofs.Settings.Omission

/-!
# One source for the settings

The settings come either from a file or from the command line and the environment. A file that is
named decides alone. Without one, each setting has its own option, its own variable and its own
default, and none is touched by another.

## Key results

- `CommandLine.chosen_eq`: options go before variables, and variables before defaults
- `CommandLine.assembled_settings`: each setting comes from its own source
- `Settings.exists_of_load`: a file is completed by the defaults
- `Program.settings_from_one_source`: every command line that is read
-/

namespace Gatehouse

namespace CommandLine

variable {env : Environment} {options others : List (Parameter × String)} {p : Parameter}
  {v : String} {args : List String} {i j : Invocation}

/-! ## Own sources -/

/-- The value that the option of a name gives. -/
def optionValue (options : List (Parameter × String)) (name : String) : Option String :=
  (options.find? fun o => o.1.longName = name).map Prod.snd

/-- The value of the option of a name, or else of a variable. -/
def named (options : List (Parameter × String)) (env : Environment) (name variableName : String) :
    Option String :=
  (optionValue options name).or (env variableName)

/-- The value of the option of a name, or else of a variable, or else a default. -/
def chosen (options : List (Parameter × String)) (env : Environment)
    (name variableName default : String) : String :=
  (named options env name variableName).getD default

/-- The server section that options and variables make, each setting from its own. -/
structure ServerAssembled (options : List (Parameter × String)) (env : Environment)
    (s : Settings.Server) : Prop where
  port : Parameter.port? (chosen options env "port" "KEYHOLD_PORT" "3000") = some s.port
  assetsPath : s.assetsPath = chosen options env "assets-path" "KEYHOLD_ASSETS_PATH" "assets"
  requireTls : s.requireTls = ((optionValue options "require-tls").isSome ||
    (env "KEYHOLD_REQUIRE_TLS").any Parameter.turnsOn)
  notifyEmail : s.notifyEmail = chosen options env "notify-email" "KEYHOLD_NOTIFY_EMAIL" ""
  tlsCert : s.tlsCert = chosen options env "tls-cert" "KEYHOLD_TLS_CERT" ""
  tlsKey : s.tlsKey = chosen options env "tls-key" "KEYHOLD_TLS_KEY" ""
  hostName : s.hostName = chosen options env "host-name" "KEYHOLD_HOST_NAME" ""

/-- The settings that options and variables make, each from its own; the others have their
    defaults. -/
structure Assembled (command : Command) (options : List (Parameter × String)) (env : Environment)
    (s : Settings) : Prop where
  serve : command = .serve → ServerAssembled options env s.server
  accounts : ∀ c, command = .accounts c → s.server = {}
  path : s.storage.path = chosen options env "db-path" "KEYHOLD_DB_PATH" "db"
  mailServer : s.mail.server = chosen options env "email-server" "KEYHOLD_EMAIL_SERVER" ""
  mailPort : s.mail.port = chosen options env "email-port" "KEYHOLD_EMAIL_PORT" ""
  mailUser : s.mail.user = chosen options env "email-user" "KEYHOLD_EMAIL_USER" ""
  mailPassword : s.mail.password = chosen options env "email-password" "KEYHOLD_EMAIL_PASSWORD" ""
  logLevel : s.observability.logLevel = chosen options env "log-level" "KEYHOLD_LOG_LEVEL" "info"
  admission : s.admission = {}
  observability : s.observability = { logLevel := s.observability.logLevel }

/-! ## Options as they are looked up -/

/-- No two parameters have the same name. -/
theorem longName_injective : Function.Injective Parameter.longName := by
  have hall : ∀ p : Parameter, p ∈ Parameter.general ++ Parameter.ofServer := by
    intro p
    cases p <;> decide
  have hinj : ∀ p ∈ Parameter.general ++ Parameter.ofServer,
      ∀ q ∈ Parameter.general ++ Parameter.ofServer, p.longName = q.longName → p = q := by
    decide
  exact fun p q => hinj p (hall p) q (hall q)

/-- The value of an option is the one that stands under its parameter. -/
theorem optionValue_longName (options : List (Parameter × String)) (p : Parameter) :
    optionValue options p.longName = options.lookup p := by
  unfold optionValue
  induction options with
  | nil => rfl
  | cons o options ih =>
    obtain ⟨q, v⟩ := o
    by_cases hq : q = p
    · subst hq
      simp
    · have hname : q.longName ≠ p.longName := fun h => hq (longName_injective h)
      have hlookup : ((q, v) :: options).lookup p = options.lookup p := by
        rw [List.lookup_cons, beq_false_of_ne (Ne.symm hq)]
      rw [List.find?_cons_of_neg (by simpa using hname), ih, hlookup]

/-- Options go before variables, and variables before defaults. -/
theorem chosen_eq (i : Invocation) (env : Environment) (p : Parameter) {default : String}
    (hdefault : p.default?.getD "" = default) :
    chosen i.given env p.longName p.variableName default = i.value env p := by
  unfold chosen named Invocation.value Invocation.value?
  rw [optionValue_longName, ← hdefault]
  cases (i.given.lookup p).or (env p.variableName) <;> rfl

/-- Where no parameter is given twice, each has the value that it is given with. -/
theorem lookup_eq_some_iff (hnodup : (options.map Prod.fst).Nodup) :
    options.lookup p = some v ↔ (p, v) ∈ options := by
  rw [List.lookup_eq_some_iff]
  constructor
  · rintro ⟨front, back, rfl, -⟩
    simp
  · intro hmem
    obtain ⟨front, back, rfl⟩ := List.append_of_mem hmem
    rw [List.map_append, List.nodup_append] at hnodup
    refine ⟨front, back, rfl, fun o ho => ?_⟩
    rw [bne_iff_ne]
    exact (hnodup.2.2 o.1 (List.mem_map_of_mem ho) p (by simp)).symm

/-- Options may come in any order. -/
theorem lookup_perm (hnodup : (options.map Prod.fst).Nodup) (hperm : others.Perm options) :
    others.lookup p = options.lookup p := by
  have hnodup' : (others.map Prod.fst).Nodup := (hperm.map _).nodup_iff.2 hnodup
  apply Option.ext
  intro v
  rw [lookup_eq_some_iff hnodup, lookup_eq_some_iff hnodup', hperm.mem_iff]

/-- Values that are kept together may come in any order. -/
theorem Kept.perm (h : Kept options) (hperm : others.Perm options) : Kept others where
  nodup := (hperm.map _).nodup_iff.2 h.nodup
  sound o ho := h.sound o (hperm.mem_iff.1 ho)

/-- Settings depend on the command and on the value of each parameter, and on nothing else. -/
theorem settings_congr (hcommand : i.command = j.command)
    (hgiven : ∀ p, i.given.lookup p = j.given.lookup p) : i.settings env = j.settings env := by
  have hvalue : i.value env = j.value env := by
    funext p
    unfold Invocation.value Invocation.value?
    rw [hgiven]
  unfold Invocation.settings Invocation.server
  rw [hcommand, hvalue]

/-! ## Settings without a file -/

/-- A switch that is given is on. -/
theorem Gives.eq_onText {words : List String} (h : Gives p v words) (hswitch : p.isSwitch = true) :
    v = Parameter.onText := by
  cases h with
  | switch => rfl
  | equals h v | apart h hv => simp [h] at hswitch
  | letterApart hc hv | letterEquals hc v | letterAttached hc hne hv =>
    simp [Parameter.isSwitch_of_letter? hc] at hswitch

/-- Every option is given by some words. -/
theorem Options.exists_gives {parameters : List Parameter} {words : List String}
    (h : Options parameters options words) : ∀ o ∈ options, ∃ words, Gives o.1 o.2 words := by
  induction h with
  | nil => exact nofun
  | cons _ hgives _ ih =>
    rw [List.forall_mem_cons]
    exact ⟨⟨_, hgives⟩, ih⟩

/-- Every option of a line is given by some words. -/
theorem Line.exists_gives {command : Command} (h : Line command options args) :
    ∀ o ∈ options, ∃ words, Gives o.1 o.2 words := by
  cases h with
  | serve hgeneral hown hclosing =>
    intro o ho
    rcases List.mem_append.1 ho with ho | ho
    · exact hgeneral.exists_gives o ho
    · exact hown.exists_gives o ho
  | accounts hgeneral hasks => exact hgeneral.exists_gives

/-- The value of a parameter of the command is not objected to, wherever it comes from. -/
theorem objection?_value (hread : read env args = .ok i) (hp : p ∈ i.command.parameters)
    {default : String}
    (hdefault : p.default? = some default) (hsound : p.objection? default = none) :
    p.objection? (i.value env p) = none := by
  obtain ⟨-, hkept, hfits⟩ := read_eq_ok_iff.1 hread
  unfold Invocation.value Invocation.value?
  cases hgiven : i.given.lookup p with
  | some v => exact hkept.sound (p, v) ((lookup_eq_some_iff hkept.nodup).1 hgiven)
  | none =>
    cases henv : env p.variableName with
    | some v => exact hfits p hp hgiven v henv
    | none =>
      rw [hdefault]
      exact hsound

/-- The port is one that its source gives. -/
theorem port_server (hread : read env args = .ok i) (hserve : i.command = .serve) :
    Parameter.port? (i.value env .port) = some (i.server env).port := by
  have hport : Parameter.port ∈ i.command.parameters := by
    rw [hserve]
    decide
  have hvalue := objection?_value hread hport rfl (by decide)
  unfold Invocation.server
  cases h : Parameter.port? (i.value env .port) with
  | some n => rfl
  | none => simp [Parameter.objection?, h] at hvalue

/-- Encryption is required if its option is given, or else as its variable says. -/
theorem requireTls_server (hread : read env args = .ok i) :
    (i.server env).requireTls = ((optionValue i.given "require-tls").isSome ||
      (env "KEYHOLD_REQUIRE_TLS").any Parameter.turnsOn) := by
  obtain ⟨hline, hkept, -⟩ := read_eq_ok_iff.1 hread
  have hoption : optionValue i.given "require-tls" = i.given.lookup .requireTls :=
    optionValue_longName i.given .requireTls
  have hserver : (i.server env).requireTls = Parameter.turnsOn (i.value env .requireTls) := rfl
  rw [hoption, hserver]
  unfold Invocation.value Invocation.value?
  cases hgiven : i.given.lookup .requireTls with
  | some v =>
    have hmem := (lookup_eq_some_iff hkept.nodup).1 hgiven
    obtain ⟨words, hgives⟩ := hline.exists_gives _ hmem
    -- The option has no value of its own: that it is given means that it is on.
    obtain rfl : v = Parameter.onText := hgives.eq_onText rfl
    have hon : Parameter.turnsOn Parameter.onText = true := by decide +kernel
    simpa using hon
  | none =>
    have hvariable : env Parameter.requireTls.variableName = env "KEYHOLD_REQUIRE_TLS" := rfl
    rw [hvariable]
    cases env "KEYHOLD_REQUIRE_TLS" with
    | some text => rfl
    | none =>
      have hoff : Parameter.turnsOn "" = false := by decide +kernel
      exact hoff

/-- Each setting comes from its own source. -/
theorem assembled_settings (hread : read env args = .ok i) :
    Assembled i.command i.given env (i.settings env) where
  serve hserve := by
    have hserver : (i.settings env).server = i.server env := by
      unfold Invocation.settings
      rw [hserve]
    have hport : chosen i.given env "port" "KEYHOLD_PORT" "3000" = i.value env .port :=
      chosen_eq i env .port rfl
    rw [hserver]
    exact {
      port := hport ▸ port_server hread hserve
      assetsPath := (chosen_eq i env .assetsPath rfl).symm
      requireTls := requireTls_server hread
      notifyEmail := (chosen_eq i env .notifyEmail rfl).symm
      tlsCert := (chosen_eq i env .tlsCert rfl).symm
      tlsKey := (chosen_eq i env .tlsKey rfl).symm
      hostName := (chosen_eq i env .hostName rfl).symm }
  accounts c hc := by
    unfold Invocation.settings
    rw [hc]
  path := (chosen_eq i env .dbPath rfl).symm
  mailServer := (chosen_eq i env .emailServer rfl).symm
  mailPort := (chosen_eq i env .emailPort rfl).symm
  mailUser := (chosen_eq i env .emailUser rfl).symm
  mailPassword := (chosen_eq i env .emailPassword rfl).symm
  logLevel := (chosen_eq i env .logLevel rfl).symm
  admission := rfl
  observability := rfl

end CommandLine

namespace Settings

open Decode (valuesAt)

/-! ## Settings of a file -/

/-- Whether every key of the settings that a document gives has the value that it gives there, and
    every key that it leaves out has its default: in the sections, and in each quota that it
    lists. -/
structure Completed (document : Value) (s : Settings) : Prop where
  given : ∀ e ∈ sections, ∀ k ∈ e.keys, ∀ w, e.value? k.name document = some w →
    k.decoder .ignored w = .ok (k.read (e.part s))
  sections : ∀ e ∈ sections, ∀ k ∈ e.keys, e.valuesOf k.name document = [] →
    k.read (e.part s) = k.read (e.part {})
  quotas : ∀ q ∈ s.admission.quotas, ∃ items,
    .array items ∈ admissionSection.valuesOf "quotas" document ∧
      ∃ w ∈ items, quota .ignored w = .ok q ∧ (valuesAt quotaKeys "burst" w = [] → q.burst = 0)

/-- Settings are accepted if nothing is wrong with them, and as they are. -/
theorem accept_eq_ok_iff {s s' : Settings} : s.accept = .ok s' ↔ s' = s ∧ s.problems = [] := by
  unfold accept
  cases h : s.problems with
  | nil => simp [eq_comm]
  | cons problem problems => simp

/-- Settings with which something is wrong are refused with all that is wrong. -/
theorem accept_eq_error {s : Settings} (h : s.problems ≠ []) :
    s.accept = .error (.invalid s.problems) := by
  unfold accept
  split
  · next heq => exact absurd heq h
  · rfl

/-- What comes of a file is described in it, completed by the defaults, and accepted. -/
theorem exists_of_load {content : FileContent} {s : Settings} (h : load content = .ok s) :
    ∃ text document, textOf content = .ok text ∧ Toml.read? text = some document ∧
      ofValue .ignored document = .ok s ∧ Completed document s ∧ s.problems = [] := by
  unfold load at h
  cases htext : textOf content with
  | error e =>
    rw [htext] at h
    cases h
  | ok text =>
    rw [htext] at h
    cases hparse : parse? text with
    | none =>
      simp only [hparse] at h
      cases h
    | some s' =>
      simp only [hparse] at h
      obtain ⟨rfl, hproblems⟩ := accept_eq_ok_iff.1 h
      unfold parse? at hparse
      cases hread : Toml.read? text with
      | none =>
        rw [hread] at hparse
        cases hparse
      | some document =>
        rw [hread] at hparse
        have hvalue : ofValue .ignored document = .ok s := by
          cases hof : ofValue .ignored document with
          | error e =>
            simp only [hof] at hparse
            cases hparse
          | ok s' =>
            simp only [hof] at hparse
            cases hparse
            rfl
        exact ⟨text, document, rfl, hread, hvalue,
          ⟨read_of_given hvalue, read_of_left_out hvalue, burst_of_left_out hvalue⟩, hproblems⟩

end Settings

namespace Program

open CommandLine

/-- The settings file is named by its own option or else by its own variable. -/
theorem configPath?_eq (i : Invocation) (env : Environment) :
    i.configPath? env = named i.given env "config" "KEYHOLD_CONFIG_PATH" := by
  have hoption : optionValue i.given "config" = i.given.lookup .config :=
    optionValue_longName i.given .config
  unfold named
  rw [hoption]
  rfl

section Files

variable {s : Surroundings} {i : Invocation} {path : String}

/-- A file that is named decides alone. -/
theorem settings_of_named (h : named i.given s.env "config" "KEYHOLD_CONFIG_PATH" = some path) :
    s.settings i = Settings.load (s.content path) := by
  unfold Surroundings.settings
  rw [configPath?_eq, h]
  rfl

/-- Where no file is named, the settings are those of the command line and the environment, if
    accepted. -/
theorem settings_of_not_named (h : named i.given s.env "config" "KEYHOLD_CONFIG_PATH" = none) :
    s.settings i = (i.settings s.env).accept := by
  unfold Surroundings.settings
  rw [configPath?_eq, h]
  rfl

/-- Where there are no files, none has contents. -/
theorem content_of_empty (h : s.files = .empty) (path : String) :
    ∃ e, s.content path = .error e := by
  unfold Surroundings.content FileTree.read FileTree.entry
  rw [h]
  cases hreach : FileTree.empty.reach (.ofText s.folder path) with
  | error e => exact ⟨e, rfl⟩
  | ok here =>
    by_cases hroot : here = []
    · exact ⟨.isADirectory, by simp [bind, Except.bind, FileTree.node?, hroot, Except.map]⟩
    · have hnode : FileTree.empty.node? here = none := by
        simp [FileTree.node?, hroot, FileTree.empty, Dict.get?_empty]
      exact ⟨.notFound, by simp [bind, Except.bind, hnode, Except.map]⟩

end Files

/-- Settings come from one source. A command line that is read is a line in one way, and its options
    may come in any order and be spelled in any way. A file that is named decides alone, whatever
    else is given, and completes what it leaves out by the defaults. Without a file each setting
    comes from its own option, variable or default, and the settings are returned if and only if
    nothing is wrong with them. -/
theorem settings_from_one_source (s : Surroundings) (args : List String) (i : Invocation)
    (hread : read s.env args = .ok i) :
    (∀ command options, Line command options args ↔ command = i.command ∧ options = i.given) ∧
    (∀ options args', options.Perm i.given → Line i.command options args' →
      read s.env args' = .ok ⟨i.command, options⟩ ∧
        s.settings ⟨i.command, options⟩ = s.settings i) ∧
    (∀ path, named i.given s.env "config" "KEYHOLD_CONFIG_PATH" = some path →
      s.settings i = Settings.load (s.content path) ∧
      (∀ (s' : Surroundings) (i' : Invocation) (path' : String),
        named i'.given s'.env "config" "KEYHOLD_CONFIG_PATH" = some path' →
        s'.content path' = s.content path → s'.settings i' = s.settings i) ∧
      ∀ c, s.settings i = .ok c →
        ∃ text document, Settings.textOf (s.content path) = .ok text ∧
          Toml.read? text = some document ∧ Settings.ofValue .ignored document = .ok c ∧
          Settings.Completed document c ∧ c.problems = []) ∧
    (named i.given s.env "config" "KEYHOLD_CONFIG_PATH" = none →
      ∃ c, Assembled i.command i.given s.env c ∧
        (∀ c', s.settings i = .ok c' ↔ c' = c ∧ c.problems = []) ∧
        (c.problems ≠ [] → s.settings i = .error (.invalid c.problems))) := by
  obtain ⟨hline, hkept, hfits⟩ := read_eq_ok_iff.1 hread
  refine ⟨fun command options => line_iff_of_read hread, ?_, ?_, ?_⟩
  · -- Every parameter is looked up, so the order of the options is of no account.
    intro options args' hperm hline'
    have hlookup : ∀ p, options.lookup p = i.given.lookup p := fun p =>
      lookup_perm hkept.nodup hperm
    constructor
    · refine read_eq_ok_iff.2 ⟨hline', hkept.perm hperm, fun p hp hnone => ?_⟩
      rw [hlookup] at hnone
      exact hfits p hp hnone
    · unfold Surroundings.settings Invocation.configPath? Invocation.value?
      rw [hlookup, settings_congr (i := ⟨i.command, options⟩) (j := i) rfl hlookup]
  · intro path hnamed
    refine ⟨settings_of_named hnamed, fun s' i' path' hnamed' hcontent => ?_, fun c hc => ?_⟩
    · rw [settings_of_named hnamed, settings_of_named hnamed', hcontent]
    · rw [settings_of_named hnamed] at hc
      exact Settings.exists_of_load hc
  · intro hnone
    rw [settings_of_not_named hnone]
    exact ⟨i.settings s.env, assembled_settings hread, fun c' => Settings.accept_eq_ok_iff,
      Settings.accept_eq_error⟩

/-- Surroundings without files, with variables for the port, the storage and the encryption. -/
def withVariables : Surroundings where
  files := .empty
  folder := []
  env name :=
    if name = "KEYHOLD_PORT" then some "8080"
    else if name = "KEYHOLD_DB_PATH" then some "/var/keyhold"
    else if name = "KEYHOLD_REQUIRE_TLS" then some "off"
    else none
  now := 0
  portTaken _ := false

/-- A settings file that sets the port and has a quota. -/
def portFile : String :=
  "[server]\nport = 9000\n[[admission.quotas]]\nmethod = \"POST\"\npathPrefix = \"/auth/\"\nperMinute = 6\n"

/-- Surroundings with such a file in the folder of the program, under the name `k`. -/
def withFile (env : Environment) : Surroundings where
  files := ⟨.ofList [(["k"], .file portFile.toUTF8.toList)]⟩
  folder := []
  env := env
  now := 0
  portTaken _ := false

/-- The file is found by its name. -/
theorem content_withFile (env : Environment) :
    (withFile env).content "k" = .ok ⟨portFile.toUTF8.toList.toArray⟩ := by
  -- A name without a slash is one step, which does not compute by itself.
  have hsplit : ("k" : String).splitOn "/" = ["k"] := by
    unfold String.splitOn
    rw [if_neg (by decide), String.splitOnAux, if_neg (by decide), if_neg (by decide),
      String.splitOnAux, if_pos (by decide)]
    decide
  unfold Surroundings.content Path.ofText
  rw [hsplit]
  rfl

/-- A port from a variable, and a storage and a switch from options; a file that is not there; and a
    file that gives the port and leaves out the storage, which an option and a variable also name.
    The same file gives the same settings to a command about accounts that a variable sends to
    it. -/
theorem settings_from_one_source_variables :
    (∃ i, read withVariables.env
        ["--db-path=data", "runserver", "--require-tls", "--host-name", "-"] = .ok i ∧
      ∃ c, withVariables.settings i = .ok c ∧ c.server.port = 8080 ∧ c.storage.path = "data" ∧
        c.server.requireTls = true ∧ c.server.hostName = "-" ∧ c.server.assetsPath = "assets") ∧
    (∃ i, read withVariables.env ["-cmissing.toml", "--log-level", "debug", "accounts", "list"] =
        .ok i ∧ ∃ e, withVariables.settings i = .error (.unreadable e)) ∧
    ∃ i, read withVariables.env ["-ck", "--db-path=data", "runserver", "--port", "1"] = .ok i ∧
      ∃ c, (withFile withVariables.env).settings i = .ok c ∧ c.server.port = 9000 ∧
        c.storage.path = "db" ∧ c.server.requireTls = false ∧
        c.admission.quotas.map (·.burst) = [0] ∧
        ∃ env i', read env ["accounts", "list"] = .ok i' ∧ (withFile env).settings i' = .ok c := by
  refine ⟨?_, ?_, ?_⟩
  · have hread : read withVariables.env
        ["--db-path=data", "runserver", "--require-tls", "--host-name", "-"] =
        .ok ⟨.serve, [(.dbPath, "data"), (.requireTls, "true"), (.hostName, "-")]⟩ := by rfl
    refine ⟨_, hread, ?_⟩
    obtain ⟨c, hc, hok, -⟩ := (settings_from_one_source _ _ _ hread).2.2.2 (by rfl)
    have hserver := hc.serve rfl
    have hproblems : c.problems = [] := by
      have hcert : c.server.tlsCert = "" := hserver.tlsCert
      have hkey : c.server.tlsKey = "" := hserver.tlsKey
      unfold Settings.problems
      rw [hcert, hkey, hc.admission]
      rfl
    have hport : Parameter.port? "8080" = some c.server.port := hserver.port
    exact ⟨c, (hok c).2 ⟨rfl, hproblems⟩, (Option.some.inj hport).symm, hc.path,
      hserver.requireTls, hserver.hostName, hserver.assetsPath⟩
  · have hread : read withVariables.env
        ["-cmissing.toml", "--log-level", "debug", "accounts", "list"] =
        .ok ⟨.accounts .list, [(.config, "missing.toml"), (.logLevel, "debug")]⟩ := by rfl
    refine ⟨_, hread, ?_⟩
    obtain ⟨e, he⟩ := content_of_empty (s := withVariables) rfl "missing.toml"
    rw [((settings_from_one_source _ _ _ hread).2.2.1 "missing.toml" (by rfl)).1, he]
    exact ⟨e, rfl⟩
  · have hread : read withVariables.env ["-ck", "--db-path=data", "runserver", "--port", "1"] =
        .ok ⟨.serve, [(.config, "k"), (.dbPath, "data"), (.port, "1")]⟩ := by rfl
    refine ⟨_, hread, ?_⟩
    obtain ⟨hload, hsame, hfile⟩ := (settings_from_one_source (withFile withVariables.env) _ _
      hread).2.2.1 "k" (by rfl)
    rw [content_withFile] at hload hfile
    -- What the file gives and what it leaves out is computed.
    have hkeys : (Settings.textOf (.ok ⟨portFile.toUTF8.toList.toArray⟩)).toOption.any fun text =>
        (Toml.read? text).any fun document =>
          ((Settings.serverSection.value? "port" document).bind fun w =>
            (Decode.unsigned 16 w).toOption) == some 9000 &&
          (Settings.storageSection.valuesOf "path" document).isEmpty &&
          (Settings.serverSection.valuesOf "requireTLS" document).isEmpty := by
      decide +kernel
    have hloaded : (Settings.load (.ok ⟨portFile.toUTF8.toList.toArray⟩)).toOption.any fun c =>
        c.admission.quotas.map (·.burst) == [0] := by
      decide +kernel
    rw [← hload] at hloaded
    cases hc : (withFile withVariables.env).settings
        ⟨.serve, [(.config, "k"), (.dbPath, "data"), (.port, "1")]⟩ with
    | error e =>
      rw [hc] at hloaded
      cases hloaded
    | ok c =>
      obtain ⟨text, document, htext, hdocument, -, hcompleted, -⟩ := hfile c hc
      simp only [htext, hdocument, Except.toOption, Option.any_some, Bool.and_eq_true, beq_iff_eq,
        List.isEmpty_iff] at hkeys
      obtain ⟨⟨hport, hpath⟩, hrequire⟩ := hkeys
      obtain ⟨w, hw, hnumber⟩ := Option.bind_eq_some_iff.1 hport
      have hgiven : Decode.unsigned 16 w = .ok c.server.port :=
        hcompleted.given Settings.serverSection (by simp [Settings.sections])
          (.unsigned 16 "port" (·.port)) (.head _) w hw
      rw [hgiven] at hnumber
      rw [hc] at hloaded
      refine ⟨c, rfl, Option.some.inj hnumber, ?_, ?_, by simpa [Except.toOption] using hloaded,
        fun name => if name = "KEYHOLD_CONFIG_PATH" then some "k" else none, ⟨.accounts .list, []⟩,
        by rfl, ?_⟩
      · exact hcompleted.sections Settings.storageSection (by simp [Settings.sections])
          (.text "path" (·.path)) (.head _) hpath
      · exact hcompleted.sections Settings.serverSection (by simp [Settings.sections])
          (.bool "requireTLS" (·.requireTls)) (.tail _ (.tail _ (.tail _ (.head _)))) hrequire
      · rw [← hc]
        exact hsame _ _ "k" (by rfl) (by rw [content_withFile, content_withFile])

end Program

end Gatehouse
