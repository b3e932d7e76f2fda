import Gatehouse.CommandLine.Invocation
import Gatehouse.CommandLine.Level

/-!
# Reading a command line

An argument is read at the level of the command in front of it: it names the next command, gives a
value to an option of this level, or is the one free value of a command that takes an e-mail
address. Behind `--` every argument is a free value.

The value of an option is judged when the next option of its level comes or the level ends; the
levels below end first. At the end of a level the environment is judged too, for what no option
gave.

* `Argument.ofText`  what an argument looks like
* `Level.step`       one argument that names no command
* `read`             a whole command line
-/

namespace Gatehouse.CommandLine

/-! ## Arguments -/

/-- What an argument looks like. -/
inductive Argument
  /-- Two dashes alone. -/
  | divider
  /-- A name behind two dashes, and the value behind an equals sign. -/
  | long (name : String) (value : Option String)
  /-- A letter behind one dash, and what follows it. -/
  | short (letter : Char) (rest : List Char)
  /-- Anything else. -/
  | plain

/-- What an argument looks like. -/
def Argument.ofText (s : String) : Argument :=
  match s.toList with
  | ['-', '-'] => .divider
  | '-' :: '-' :: cs =>
    let name := String.ofList (cs.takeWhile (· ≠ '='))
    match cs.dropWhile (· ≠ '=') with
    | _ :: value => .long name (some (String.ofList value))
    | [] => .long name none
  | '-' :: c :: cs => .short c cs
  | _ => .plain

/-- The value that directly follows a letter; an equals sign in front of it does not count, and
    nothing at all is no value. -/
def attached? : List Char → Option String
  | [] => none
  | '=' :: cs => some (String.ofList cs)
  | cs => some (String.ofList cs)

/-! ## The arguments of one level -/

/-- What the arguments of one level gave so far. -/
structure Reading where
  given : List (Parameter × String) := []
  /-- The last option, and its value if that has come. -/
  pending : Option (Parameter × Option String) := none
  /-- Whether `--` has come. -/
  divided : Bool := false
  email : Option String := none

namespace Reading

/-- Whether an option waits for its value. -/
def waits (r : Reading) : Bool :=
  match r.pending with
  | some (_, none) => true
  | _ => false

/-- Judges a value, and keeps it. -/
def take (r : Reading) (p : Parameter) (v : String) : Except UsageError Reading :=
  if (r.given.lookup p).isSome then .error .repeated
  else
    match p.objection? v with
    | some e => .error e
    | none => .ok { r with given := r.given ++ [(p, v)] }

/-- Judges the value of the last option. -/
def settle (r : Reading) : Except UsageError Reading :=
  match r.pending with
  | none => .ok r
  | some (_, none) => .error .missingValue
  | some (p, some v) => take { r with pending := none } p v

/-- An option with the value that is part of its argument, if there is one. -/
def option (r : Reading) (l : Level) (m : Meaning) (value : Option String) :
    Except UsageError Reading :=
  match m with
  | .help => do let _ ← r.settle; .error (.help l)
  | .version => do let _ ← r.settle; .error .version
  | .give p => do
    let r ← r.settle
    if p.isSwitch then r.take p Parameter.onText
    else
      match value with
      | some v => r.take p v
      | none => .ok { r with pending := some (p, none) }

end Reading

namespace Meaning

/-- Whether the option has a value. -/
def takesValue : Meaning → Bool
  | give p => !p.isSwitch
  | help => false
  | version => false

end Meaning

namespace Level

/-- A free value. -/
def free (l : Level) (r : Reading) (s : String) : Except UsageError Reading :=
  if l.takesEmail && r.email.isNone then do
    let r ← r.settle
    .ok { r with email := some s }
  else if r.divided && (l.command? s).isSome then .error .unknownArgument
  else if !l.commands.isEmpty then .error .unknownCommand
  else .error .unknownArgument

/-- An argument that names no command. -/
def step (l : Level) (r : Reading) (s : String) : Except UsageError Reading :=
  if r.divided then l.free r s
  else
    match Argument.ofText s with
    | .divider => .ok { r with divided := true }
    | .long name value =>
      match l.option? name with
      | none => .error .unknownArgument
      | some m => if value.isSome && !m.takesValue then .error .unwantedValue else r.option l m value
    | .short c rest =>
      match l.letterOption? c with
      | none => .error .unknownArgument
      | some m => r.option l m (attached? rest)
    | .plain =>
      match r.pending with
      | some (p, none) => .ok { r with pending := some (p, some s) }
      | _ => l.free r s

/-- The command that an argument names: none behind `--` or where an option waits for its value. -/
def next? (l : Level) (r : Reading) (s : String) : Option Level :=
  if r.divided || r.waits then none else l.command? s

/-- Judges the environment, for the parameters of a level that no option gave. -/
def judge (l : Level) (env : Environment) (r : Reading) : Except UsageError Unit :=
  let unset := l.parameters.filter fun p => (r.given.lookup p).isNone
  match unset.findSome? fun p => (env p.variableName).bind p.objection? with
  | some e => .error e
  | none => .ok ()

/-- Whether nothing at all gives a parameter of a level. -/
def untouched (l : Level) (env : Environment) (r : Reading) : Bool :=
  r.given.isEmpty && l.parameters.all fun p => (env p.variableName).isNone

/-- What a level without commands below it asks for. -/
def command (l : Level) (r : Reading) : Option Command :=
  match l with
  | runserver => some .serve
  | list => some (.accounts .list)
  | create => some (.accounts (.create r.email))
  | display => some (.accounts (.display r.email))
  | delete => some (.accounts (.delete r.email))
  | _ => none

/-- The end of a level, with what the level below gave if there is one. -/
def finish (l : Level) (env : Environment) (r : Reading) (below : Option Invocation) :
    Except UsageError Invocation := do
  let r ← r.settle
  l.judge env r
  match below with
  | some i => .ok { i with given := r.given ++ i.given }
  | none =>
    match l.command r with
    | some c => .ok ⟨c, r.given⟩
    | none => .error (if l.untouched env r then .nothingGiven else .missingCommand)

/-- Help on the command that arguments lead to. -/
def guide (l : Level) : List String → UsageError
  | [] => .help l
  | s :: ss =>
    match l.command? s with
    | some l => guide l ss
    | none => .unknownCommand

/-- Reads the arguments from some point of a level on. -/
def readFrom (env : Environment) (l : Level) (r : Reading) :
    List String → Except UsageError Invocation
  | [] => l.finish env r none
  | s :: ss =>
    match l.next? r s with
    | some below =>
      if below.isGuide then .error (l.guide ss)
      else do
        let i ← readFrom env below {} ss
        l.finish env r (some i)
    | none => do
      let r ← l.step r s
      readFrom env l r ss

end Level

/-- Reads a command line, given the environment. -/
def read (env : Environment) (args : List String) : Except UsageError Invocation :=
  Level.program.readFrom env {} args

end Gatehouse.CommandLine
