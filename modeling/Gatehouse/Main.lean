import Gatehouse.Http.Wire
import Gatehouse.Program
import Std.Time.DateTime.Timestamp

/-!
# The command line program

The outer layer: it shows the program the files it needs, lets it run and writes down what has
changed. A service speaks over the standard streams: it replies to the requests that come in until
there are no more, and that is its shutdown.
-/

namespace Gatehouse.Outer

open Program (Begun Outcome Surroundings)

/-- The written form of a place. -/
def written (p : Place) : String := (Path.ofPlace p).text

/-- The number of the error that a folder was read as a file. -/
def isADirectoryNumber : UInt32 := 21

/-- The tree with what the machine has at one place. -/
def observeNode (t : FileTree) (p : Place) : IO FileTree := do
  try
    return t.put p (.file (← IO.FS.readBinFile (written p)).toList)
  catch
    | .inappropriateType _ number _ =>
      return if number = isADirectoryNumber then t.put p .folder else t
    | _ => return t

/-- The tree with what the machine has where a path leads and on the way. -/
def observe (t : FileTree) (p : Path) : IO FileTree := do
  let mut t := t
  for place in p.places do
    for n in List.range place.length do
      t ← observeNode t (place.take (n + 1))
  return t

/-- The files that matter for a command line. -/
def observeFor (s : Surroundings) (args : List String) : IO FileTree := do
  match CommandLine.read s.env args with
  | .error _ => return s.files
  | .ok i =>
    let mut files := s.files
    for path in (i.configPath? s.env).toList do
      files ← observe files (.ofText s.folder path)
    match { s with files }.settings i with
    | .error _ => return files
    | .ok settings =>
      for path in Program.paths settings do
        files ← observe files (.ofText s.folder path)
      return files

/-- Writes down what has changed: folders that are new, and files with other contents, each of them
    through a temporary file. -/
def writeDown (old new : FileTree) : IO Unit := do
  for (p, node) in new.nodes.entries do
    if old.node? p ≠ some node then
      match node with
      | .folder => IO.FS.createDirAll (written p)
      | .device => pure ()
      | .file content =>
        let temporary := written p ++ ".tmp"
        IO.FS.writeBinFile temporary ⟨content.toArray⟩
        IO.FS.rename temporary (written p)

/-- The variables of the environment that matter. -/
def environment : IO CommandLine.Environment := do
  let mut set : List (String × String) := []
  for p in CommandLine.Parameter.general ++ CommandLine.Parameter.ofServer do
    if let some value ← IO.getEnv p.variableName then
      set := (p.variableName, value) :: set
  return fun name => set.lookup name

/-- The lines of a head, up to the empty line; nothing if the input has ended. -/
partial def readHead (input : IO.FS.Stream) (lines : List String) : IO (Option (List String)) := do
  let line ← input.getLine
  if line.isEmpty then return none
  let line := String.ofList (line.toList.filter fun c => c ≠ '\r' && c ≠ '\n')
  if line.isEmpty then return some lines.reverse else readHead input (line :: lines)

/-- Replies to requests until there are no more. -/
partial def converse (input output : IO.FS.Stream) (s : Service (Storage.Persistent Storage.Folder)) :
    IO Unit := do
  match ← readHead input [] with
  | none => return
  | some lines =>
    match Http.Request.ofHead lines none (← IO.monoNanosNow) with
    | .error _ =>
      output.putStr ((Http.Response.bare 400).deliver .get none).wire
      output.flush
    | .ok request =>
      let _ ← input.read request.bodyLength.toUSize
      let (response, s) := s.reply (Http.freshId (← IO.getRandomBytes 16).toList) request
      output.putStr ((response.getD (.bare 500)).deliver request.method none).wire
      output.flush
      converse input output s

/-- Writes down an outcome, and gives its code. -/
def report (o : Outcome) : IO UInt32 := do
  IO.print o.written
  IO.eprint (o.complaint "malformed document")
  return o.code.toUInt32

/-- Runs the program on a command line. -/
def run (args : List String) : IO UInt32 := do
  let folder := ((← IO.currentDir).toString.splitOn "/").filter (! ·.isEmpty)
  let now ← Std.Time.Timestamp.now
  let s : Surroundings :=
    { files := .empty
      folder
      env := ← environment
      now := now.toSecondsSinceUnixEpoch.val.toNat
      portTaken := fun _ => false }
  let s := { s with files := ← observeFor s args }
  match Program.begin s args with
  | .over outcome files =>
    writeDown s.files files
    report outcome
  | .serving settings rest (controller, storage) =>
    writeDown s.files storage.disk.tree
    converse (← IO.getStdin) (← IO.getStdout) (.new settings storage)
    let (outcome, files) := Program.shutDown rest (controller, storage)
    writeDown storage.disk.tree files
    report outcome

end Gatehouse.Outer

def main (args : List String) : IO UInt32 := Gatehouse.Outer.run args
