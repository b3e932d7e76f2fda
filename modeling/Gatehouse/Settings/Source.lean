import Gatehouse.Settings.Decode
import Gatehouse.Settings.Validation
import Gatehouse.SystemError
import Gatehouse.Toml.Document

/-!
# Where settings come from

Settings come from a file or from the command line and the environment, never from both: a file that
is named decides alone, and what it leaves out has its default. Settings from either place must be
valid.
-/

namespace Gatehouse.Settings

/-- Why there are no settings to run with. -/
inductive SourceError
  | unreadable (e : SystemError)
  /-- The file is no settings document. -/
  | malformed
  | invalid (problems : List Problem)
deriving Repr

/-- The wording of an error; a malformed document has none of its own. -/
def SourceError.message? : SourceError → Option String
  | unreadable e => some ("IO error: " ++ e.message)
  | malformed => none
  | invalid ps => some ("Validation failed: " ++ ", ".intercalate (ps.map Problem.message))

/-- The settings that a text describes; they need not be valid. -/
def parse? (text : String) : Option Settings :=
  match Toml.read? text with
  | none => none
  | some v => (ofValue .ignored v).toOption

/-- What reading a file gives: its bytes, or why they cannot be read. -/
abbrev FileContent := Except SystemError ByteArray

/-- The text in a file. -/
def textOf (content : FileContent) : Except SystemError String :=
  match content with
  | .error e => .error e
  | .ok bytes =>
    match String.fromUTF8? bytes with
    | some text => .ok text
    | none => .error .invalidText

/-- The settings with which nothing is wrong. -/
def accept (s : Settings) : Except SourceError Settings :=
  match s.problems with
  | [] => .ok s
  | ps => .error (.invalid ps)

/-- The settings in a file. -/
def load (content : FileContent) : Except SourceError Settings :=
  match textOf content with
  | .error e => .error (.unreadable e)
  | .ok text =>
    match parse? text with
    | none => .error .malformed
    | some s => s.accept

/-- The settings to run with: those of the file if one is named, else those given. -/
def resolve (file : Option FileContent) (given : Settings) : Except SourceError Settings :=
  match file with
  | some content => load content
  | none => given.accept

end Gatehouse.Settings
