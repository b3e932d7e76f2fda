import Gatehouse.CommandLine.Parameter
import Gatehouse.Settings.Basic

/-!
# Invocations

An invocation is a command, the values that options gave to parameters, and the environment. What an
option gives goes before what the environment says, and that before the default. Settings that do
not come from a file are made of these values; a command that starts no server has the default
server section, whatever is given.
-/

namespace Gatehouse.CommandLine

/-- What is to be done with accounts. -/
inductive AccountCommand
  | list
  | create (email : Option String)
  | display (email : Option String)
  | delete (email : Option String)
deriving DecidableEq

/-- What is to be done. -/
inductive Command
  | serve
  | accounts (c : AccountCommand)
deriving DecidableEq

/-- The values of the variables that are set. -/
abbrev Environment := String → Option String

/-- A command, and the values that options gave. -/
structure Invocation where
  command : Command
  given : List (Parameter × String)

namespace Invocation

/-- The value of a parameter, if an option or the environment gives one. -/
def value? (i : Invocation) (env : Environment) (p : Parameter) : Option String :=
  (i.given.lookup p).or (env p.variableName)

/-- The value of a parameter. -/
def value (i : Invocation) (env : Environment) (p : Parameter) : String :=
  ((i.value? env p).or p.default?).getD ""

/-- The server section that options and environment make. -/
def server (i : Invocation) (env : Environment) : Settings.Server where
  port := (Parameter.port? (i.value env .port)).getD 0
  tlsCert := i.value env .tlsCert
  tlsKey := i.value env .tlsKey
  requireTls := Parameter.turnsOn (i.value env .requireTls)
  assetsPath := i.value env .assetsPath
  notifyEmail := i.value env .notifyEmail
  hostName := i.value env .hostName

/-- The settings that options and environment make. -/
def settings (i : Invocation) (env : Environment) : Settings where
  server := match i.command with
    | .serve => i.server env
    | .accounts _ => {}
  storage := { path := i.value env .dbPath }
  mail := {
    server := i.value env .emailServer
    port := i.value env .emailPort
    user := i.value env .emailUser
    password := i.value env .emailPassword }
  observability := { logLevel := i.value env .logLevel }

/-- The path of the file with the settings, if one is named. -/
def configPath? (i : Invocation) (env : Environment) : Option String := i.value? env .config

end Invocation

end Gatehouse.CommandLine
