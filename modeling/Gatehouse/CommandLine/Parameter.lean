/-!
# Parameters of the program

A parameter can be given by an option on the command line or by a variable of the environment;
otherwise it has its default. A switch is an option without a value: to give it turns it on.
-/

namespace Gatehouse.CommandLine

/-- What can be given to the program. -/
inductive Parameter
  | config
  | dbPath
  | emailServer
  | emailPort
  | emailUser
  | emailPassword
  | logLevel
  | port
  | assetsPath
  | requireTls
  | notifyEmail
  | tlsCert
  | tlsKey
  | hostName
deriving DecidableEq

namespace Parameter

/-- The name of the option, behind two dashes. -/
def longName : Parameter → String
  | config => "config"
  | dbPath => "db-path"
  | emailServer => "email-server"
  | emailPort => "email-port"
  | emailUser => "email-user"
  | emailPassword => "email-password"
  | logLevel => "log-level"
  | port => "port"
  | assetsPath => "assets-path"
  | requireTls => "require-tls"
  | notifyEmail => "notify-email"
  | tlsCert => "tls-cert"
  | tlsKey => "tls-key"
  | hostName => "host-name"

/-- The letter of the option, behind one dash. -/
def letter? : Parameter → Option Char
  | config => some 'c'
  | port => some 'p'
  | _ => none

/-- The variable of the environment. -/
def variableName : Parameter → String
  | config => "KEYHOLD_CONFIG_PATH"
  | dbPath => "KEYHOLD_DB_PATH"
  | emailServer => "KEYHOLD_EMAIL_SERVER"
  | emailPort => "KEYHOLD_EMAIL_PORT"
  | emailUser => "KEYHOLD_EMAIL_USER"
  | emailPassword => "KEYHOLD_EMAIL_PASSWORD"
  | logLevel => "KEYHOLD_LOG_LEVEL"
  | port => "KEYHOLD_PORT"
  | assetsPath => "KEYHOLD_ASSETS_PATH"
  | requireTls => "KEYHOLD_REQUIRE_TLS"
  | notifyEmail => "KEYHOLD_NOTIFY_EMAIL"
  | tlsCert => "KEYHOLD_TLS_CERT"
  | tlsKey => "KEYHOLD_TLS_KEY"
  | hostName => "KEYHOLD_HOST_NAME"

/-- The value of a parameter that is not given, if it has one then. -/
def default? : Parameter → Option String
  | config => none
  | dbPath => some "db"
  | logLevel => some "info"
  | port => some "3000"
  | assetsPath => some "assets"
  | requireTls => none
  | _ => some ""

/-- Whether the option has no value. -/
def isSwitch : Parameter → Bool
  | requireTls => true
  | _ => false

/-- The parameters that every command has. -/
def general : List Parameter :=
  [config, dbPath, emailServer, emailPort, emailUser, emailPassword, logLevel]

/-- The parameters of a server. -/
def ofServer : List Parameter :=
  [port, assetsPath, requireTls, notifyEmail, tlsCert, tlsKey, hostName]

/-! ## Values -/

/-- The number that decimal digits, at least one, stand for. -/
def digits? (cs : List Char) : Option Nat :=
  if cs.isEmpty || !cs.all Char.isDigit then none
  else some (cs.foldl (fun n c => n * 10 + (c.toNat - '0'.toNat)) 0)

/-- A port: digits, perhaps behind a sign, that stand for a number below `2^16`. -/
def port? (s : String) : Option Nat :=
  let inRange (n : Nat) : Option Nat := if n < 65536 then some n else none
  match s.toList with
  | '-' :: cs => (digits? cs).bind fun n => if n = 0 then some 0 else none
  | '+' :: cs => (digits? cs).bind inRange
  | cs => (digits? cs).bind inRange

/-- The texts that turn a switch off. -/
def offTexts : List String := ["", "n", "no", "f", "false", "off", "0"]

/-- Whether a text turns a switch on; the case of its letters does not matter. -/
def turnsOn (s : String) : Bool := !offTexts.contains s.toLower

/-- The text that stands for a switch that is given. -/
def onText : String := "true"

end Parameter

end Gatehouse.CommandLine
