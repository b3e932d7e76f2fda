import Gatehouse.CommandLine.Invocation
import Gatehouse.CommandLine.Level
import Gatehouse.Text.Plain

/-!
# Help pages

Each level has a page: what the level is for, how to call it, the commands below it, its free value
and its options. The explanation of an option also tells its variable, with the value that is set,
and its default. Explanations stand in a column of their own, unless an option is so long that one
of them would not fit beside it: then all of them stand on lines of their own.
-/

namespace Gatehouse.CommandLine

/-- The width of a page. -/
def pageWidth : Nat := 100

/-- A text of blanks. -/
def blanks (n : Nat) : String := String.ofList (List.replicate n ' ')

namespace Parameter

/-- What a parameter is for. -/
def explanation : Parameter → String
  | config => "Path to configuration file. Overrides all other flags and environment variables"
  | dbPath => "Path to the database directory"
  | emailServer => "Mail server for sending emails"
  | emailPort => "Port to use with mail server"
  | emailUser => "Username for authentication with mail server"
  | emailPassword => "Password for authentication with mail server"
  | logLevel => "Log level (trace, debug, info, warn, error)"
  | port => "Port to listen on"
  | assetsPath => "Path to assets directory"
  | requireTls => "Reject insecure connections"
  | notifyEmail => "Email address to send error reports to"
  | tlsCert => "Path to TLS certificate file"
  | tlsKey => "Path to TLS key file"
  | hostName => "Public host name, if it differs from the listener address"

/-- Whether the value of the variable is kept off the page. -/
def isSecret : Parameter → Bool
  | emailPassword => true
  | _ => false

/-- The variable with its value, and the default. -/
def sources (env : Environment) (p : Parameter) : List String :=
  let value := if p.isSecret then "" else "=" ++ (env p.variableName).getD ""
  ["[env: " ++ p.variableName ++ value ++ "]"]
    ++ (p.default?.map fun d => "[default: " ++ (if d.isEmpty then "\"\"" else d) ++ "]").toList

/-- The name that stands for the value. -/
def valueName (p : Parameter) : String :=
  (p.longName.map fun c => if c = '-' then '_' else c).toUpper

end Parameter

/-- An option as it stands on a page. -/
structure OptionEntry where
  letter : Option Char
  /-- The long name, and the name of the value. -/
  form : String
  explanation : String
  sources : List String

namespace OptionEntry

/-- The entry of a parameter. -/
def ofParameter (env : Environment) (p : Parameter) : OptionEntry where
  letter := p.letter?
  form := "--" ++ p.longName ++ (if p.isSwitch then "" else " <" ++ p.valueName ++ ">")
  explanation := p.explanation
  sources := p.sources env

/-- All that is explained, in a column: a line break in a value leads back to its beginning. -/
def textFrom (e : OptionEntry) (column : Nat) : String :=
  (" ".intercalate (e.explanation :: e.sources)).replace "\n" ("\n" ++ blanks column)

/-- The beginning of the line of an option. -/
def label (e : OptionEntry) : String :=
  "  " ++ (match e.letter with
    | some c => String.ofList ['-', c, ',', ' ']
    | none => blanks 4) ++ e.form

/-- Whether the explanation would not fit beside options of a width. -/
def overflows (longest : Nat) (e : OptionEntry) : Bool :=
  let column := longest + 8
  2 * pageWidth < 5 * column
    && pageWidth - column < e.explanation.length + (" ".intercalate e.sources).length

end OptionEntry

namespace Level

/-- The options of a level. -/
def optionEntries (env : Environment) (l : Level) : List OptionEntry :=
  l.parameters.map (.ofParameter env) ++ [⟨some 'h', "--help", "Print help", []⟩]
    ++ (if l = program then [⟨some 'V', "--version", "Print version", []⟩] else [])

/-- What a level is for. -/
def explanation : Level → String
  | program => "Account service with per-route request admission"
  | runserver => "Start a server instance"
  | accounts => "Commands for managing accounts"
  | list => "List existing accounts"
  | create => "Create new account"
  | display => "Display account"
  | delete => "Delete account"
  | help => "Print this message or the help of the given subcommand(s)"
  | accountsHelp => "Print this message or the help of the given subcommand(s)"

/-- How a level is called. -/
def usage : Level → String
  | program => "keyhold [OPTIONS] <COMMAND>"
  | runserver => "keyhold runserver [OPTIONS]"
  | accounts => "keyhold accounts <COMMAND>"
  | list => "keyhold accounts list"
  | create => "keyhold accounts create [EMAIL]"
  | display => "keyhold accounts display [EMAIL]"
  | delete => "keyhold accounts delete [EMAIL]"
  | help => "keyhold help [COMMAND]..."
  | accountsHelp => "keyhold accounts help [COMMAND]..."

/-- The lines about the options of a level. -/
def optionLines (env : Environment) (l : Level) : List String :=
  let entries := l.optionEntries env
  let longest := entries.foldl (fun n e => max n e.form.length) 0
  if entries.any (·.overflows longest) then
    entries.flatMap fun e => [e.label, blanks 10 ++ e.textFrom 10]
  else
    entries.map fun e =>
      e.label ++ blanks (longest + 8 - e.label.length) ++ e.textFrom (longest + 8)

/-- The lines about the commands below a level. -/
def commandLines (l : Level) : List String :=
  let longest := l.commands.foldl (fun n c => max n c.1.length) 0
  l.commands.map fun c => "  " ++ c.1 ++ blanks (longest + 2 - c.1.length) ++ c.2.explanation

/-- The lines about the free value of a level. -/
def argumentLines (l : Level) : List String :=
  if l.takesEmail then ["  [EMAIL]  "]
  else if l.isGuide then ["  [COMMAND]...  Print help for the subcommand(s)"]
  else []

/-- A part of a page under its title, if it has lines. -/
def part (title : String) (lines : List String) : List String :=
  if lines.isEmpty then [] else ["", title] ++ lines

/-- The lines of the page about a level. -/
def pageLines (env : Environment) (l : Level) : List String :=
  [l.explanation, "", "Usage: " ++ l.usage] ++ part "Commands:" l.commandLines
    ++ part "Arguments:" l.argumentLines
    ++ (if l.isGuide then [] else part "Options:" (l.optionLines env))

/-- The page about a level. Values of variables stand on it without control sequences. -/
def page (env : Environment) (l : Level) : String :=
  Text.plain (String.join ((l.pageLines env).map (· ++ "\n")))

end Level

end Gatehouse.CommandLine
