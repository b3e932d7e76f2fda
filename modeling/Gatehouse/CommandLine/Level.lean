import Gatehouse.CommandLine.Parameter

/-!
# Levels of the command line

Commands form levels: below the program itself stand `runserver` and `accounts`, below `accounts`
what can be done with accounts. Each level has its own options, and help is about one level.
-/

namespace Gatehouse.CommandLine

/-- A place where arguments are read: the program itself, or one of its commands. -/
inductive Level
  | program
  | runserver
  | accounts
  | list
  | create
  | display
  | delete
  | help
  | accountsHelp
deriving DecidableEq

/-- What an option is for. -/
inductive Meaning
  | give (p : Parameter)
  | help
  | version

namespace Level

/-- The commands below a level. -/
def commands : Level → List (String × Level)
  | program => [("runserver", runserver), ("accounts", accounts), ("help", help)]
  | accounts =>
    [("list", list), ("create", create), ("display", display), ("delete", delete), ("help", accountsHelp)]
  | _ => []

/-- Whether a level is about the help on other levels. -/
def isGuide : Level → Bool
  | help => true
  | accountsHelp => true
  | _ => false

/-- The command of a name below a level. -/
def command? (l : Level) (name : String) : Option Level := l.commands.lookup name

/-- The parameters that options of a level give. -/
def parameters : Level → List Parameter
  | program => Parameter.general
  | runserver => Parameter.ofServer
  | _ => []

/-- Whether a level has one free value. -/
def takesEmail : Level → Bool
  | create => true
  | display => true
  | delete => true
  | _ => false

/-- What the option of a name is for. -/
def option? (l : Level) (name : String) : Option Meaning :=
  match l.parameters.find? (·.longName = name) with
  | some p => some (.give p)
  | none =>
    if name = "help" then some .help
    else if name = "version" && l = program then some .version
    else none

/-- What the option of a letter is for. -/
def letterOption? (l : Level) (c : Char) : Option Meaning :=
  match l.parameters.find? (·.letter? = some c) with
  | some p => some (.give p)
  | none =>
    if c = 'h' then some .help
    else if c = 'V' && l = program then some .version
    else none

end Level

/-- Why a value is refused, or a command line as a whole. `help` and `version` are asked for and not
    mistakes. -/
inductive UsageError
  | help (about : Level)
  | version
  /-- An option without its value, or with an empty one where something has to stand. -/
  | missingValue
  /-- A value that cannot be read. -/
  | malformedValue
  /-- A switch with a value. -/
  | unwantedValue
  /-- An option that was given before. -/
  | repeated
  | unknownArgument
  | unknownCommand
  | missingCommand
  /-- Neither a command nor anything else. -/
  | nothingGiven
deriving DecidableEq

/-- The code that the program ends with. -/
def UsageError.exitCode : UsageError → Nat
  | help _ => 0
  | version => 0
  | _ => 2

/-- What is complained of, if something is. -/
def UsageError.wording? : UsageError → Option String
  | help _ => none
  | version => none
  | missingValue => some "a value is required for an option but none was given"
  | malformedValue => some "the value of an option cannot be read"
  | unwantedValue => some "a value was given for an option that takes none"
  | repeated => some "an option was given more than once"
  | unknownArgument => some "there is an unexpected argument"
  | unknownCommand => some "there is no such command"
  | missingCommand => some "a command is required but none was given"
  | nothingGiven => some "a command is required, try --help"

/-- What is wrong with a value, if something is. -/
def Parameter.objection? : Parameter → String → Option UsageError
  | config, v => if v.isEmpty then some .missingValue else none
  | port, v => if (port? v).isSome then none else some .malformedValue
  | _, _ => none

end Gatehouse.CommandLine
