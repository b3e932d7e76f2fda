import Gatehouse.Account.Admin
import Gatehouse.CommandLine.Help
import Gatehouse.CommandLine.Reader
import Gatehouse.Service
import Gatehouse.Settings.Source
import Gatehouse.Storage.Persistent

/-!
# The program

The program reads its command line and its settings, and then serves or administers accounts. It
runs in surroundings: the files there are, the folder it was started in, the environment, the time
and the ports that others hold. What comes of it is an `Outcome`, with the code the program ends
with and what it writes.
-/

namespace Gatehouse.Program

open CommandLine (AccountCommand Environment Invocation UsageError)
open Lifecycle (Controller Exit Procedure)
open Storage (Folder Persistent Script)

/-- What came of a run of the program. -/
inductive Outcome
  /-- The command line asks for help or the version, or is mistaken. -/
  | misused (e : UsageError) (env : Environment)
  /-- There are no settings to run with. -/
  | unconfigured (e : Settings.SourceError)
  | listed (keys : Option (List String))
  | created (a : Account)
  | displayed (a : Account)
  | deleted
  /-- The administration of accounts failed. -/
  | rejected (e : Account.AdminError)
  /-- The service has ended; whether it had served until its shutdown. -/
  | ended (exit : Exit) (served : Bool)
  /-- The program gave up in the middle. -/
  | gaveUp

/-- The name of the program. -/
def name : String := "keyhold"

/-- How to call the commands that take an e-mail address. -/
def emailUsage : String := "Usage: " ++ name ++ " accounts <create|display|delete> <email>"

namespace Outcome

/-- The code that the program ends with. -/
def code : Outcome → Nat
  | misused e _ => e.exitCode
  | unconfigured _ => 1
  | listed _ => 0
  | created _ => 0
  | displayed _ => 0
  | deleted => 0
  | rejected _ => 1
  | ended exit _ => exit.code
  | gaveUp => 101

/-- A text of lines. -/
def textOfLines (lines : List String) : String := String.join (lines.map (· ++ "\n"))

/-- What the program writes. -/
def written : Outcome → String
  | misused .version _ => textOfLines [name ++ " " ++ Status.version]
  | misused (.help l) env => l.page env
  | listed none => textOfLines ["No existing accounts!"]
  | listed (some keys) => textOfLines keys
  | created a => textOfLines ["Created account " ++ a.email]
  | displayed a => textOfLines [a.render]
  | deleted => textOfLines ["Account deleted"]
  | _ => ""

/-- What the program complains of. `unknown` stands for a wording that is not its own. -/
def complaint (unknown : String) : Outcome → String
  | rejected e =>
    let wording := e.message?.getD ("Storage error: Serialization error: " ++ unknown)
    textOfLines (if e.isInputError then [wording, emailUsage] else ["Error: " ++ wording])
  | misused e _ => textOfLines (e.wording?.toList.map ("error: " ++ ·))
  | _ => ""

/-- Whether a service had served until its shutdown. -/
def served : Outcome → Bool
  | ended _ served => served
  | _ => false

end Outcome

/-- What the program finds around it. -/
structure Surroundings where
  files : FileTree
  /-- The folder in which the program was started. -/
  folder : Place
  env : Environment
  /-- Seconds since the beginning of 1970. -/
  now : Nat
  portTaken : Nat → Bool

namespace Surroundings

/-- What is found in a file, whose path is seen from the folder of the program. -/
def content (s : Surroundings) (path : String) : Settings.FileContent :=
  (s.files.read (.ofText s.folder path)).map fun bytes => ⟨bytes.toArray⟩

/-- The settings for an invocation. -/
def settings (s : Surroundings) (i : Invocation) : Except Settings.SourceError Settings :=
  Settings.resolve ((i.configPath? s.env).map s.content) (i.settings s.env)

/-- The storage at a path, closed. -/
def storage (s : Surroundings) (path : String) : Persistent Folder :=
  { disk := ⟨s.files, .ofText s.folder path⟩ }

/-- The outcome of listening at a port. -/
def bound (s : Surroundings) (port : Nat) : Except SystemError Unit :=
  if s.portTaken port then .error .addressInUse else .ok ()

end Surroundings

/-- What is to be done with the storage to administer accounts. -/
def administer (c : AccountCommand) (now : Nat) : Script Outcome :=
  let conclude {α : Type} (success : α → Outcome) (r : Account.AdminResult α) : Outcome :=
    match r with
    | .ok a => success a
    | .error e => .rejected e
  match c with
  | .list => (Account.listAll).map (conclude .listed)
  | .create email => (Account.create (email.getD "") now).map (conclude .created)
  | .display email => (Account.display (email.getD "")).map (conclude .displayed)
  | .delete email => (Account.delete (email.getD "")).map (conclude fun _ => .deleted)

/-- The life of a service, from the beginning. -/
def life (s : Surroundings) (settings : Settings) : Procedure Exit :=
  let port := settings.server.port
  Lifecycle.wholeLife port (s.bound port) (Service.server settings.server s.files s.folder)

/-- How far the program comes by itself. -/
inductive Begun
  | over (outcome : Outcome) (files : FileTree)
  /-- The service waits for its shutdown; this is the rest of its life. -/
  | serving (settings : Settings) (rest : Procedure Exit) (state : Controller × Persistent Folder)

/-- Begins to run the program on a command line. -/
def begin (s : Surroundings) (args : List String) : Begun :=
  match CommandLine.read s.env args with
  | .error e => .over (.misused e s.env) s.files
  | .ok i =>
    match s.settings i with
    | .error e => .over (.unconfigured e) s.files
    | .ok settings =>
      let storage := s.storage settings.storage.path
      match i.command with
      | .serve =>
        match (life s settings).run Service.application ({}, storage) with
        | (.finished exit, (_, storage)) => .over (.ended exit false) storage.disk.tree
        | (.gaveUp, (_, storage)) => .over .gaveUp storage.disk.tree
        | (.waiting rest, state) => .serving settings rest state
      | .accounts c =>
        match (administer c s.now).run storage with
        | (.value outcome, storage) => .over outcome storage.disk.tree
        | (.panic, storage) => .over .gaveUp storage.disk.tree

/-- Triggers the shutdown of a service that waits for it. -/
def shutDown (rest : Procedure Exit) (state : Controller × Persistent Folder) :
    Outcome × FileTree :=
  match rest.run Service.application ({ state.1 with triggered := true }, state.2) with
  | (.finished exit, (_, storage)) => (.ended exit true, storage.disk.tree)
  | (_, (_, storage)) => (.gaveUp, storage.disk.tree)

/-- Runs the program on a command line, with a service shut down as soon as it serves; what came of
    it, and the files there are then. -/
def run (s : Surroundings) (args : List String) : Outcome × FileTree :=
  match begin s args with
  | .over outcome files => (outcome, files)
  | .serving _ rest state => shutDown rest state

/-- The paths of the files that the program reads with some settings. -/
def paths (s : Settings) : List String :=
  [s.storage.path ++ "/keyhold.json", s.server.tlsCert, s.server.tlsKey]

end Gatehouse.Program
