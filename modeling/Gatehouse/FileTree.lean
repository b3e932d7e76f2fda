import Gatehouse.Dict
import Gatehouse.Path
import Gatehouse.SystemError

/-!
# Trees of files

A `FileTree` is a file system in memory: folders and files at places, and the operations that a
program performs on them under paths, each with the error the system gives when the tree does not
allow it. The root is a folder that is always there.

* `FileTree.reach`        where a path leads
* `FileTree.makeFolders`  a folder and all that is missing above it
-/

namespace Gatehouse

/-- The contents of a file. -/
abbrev Bytes := List UInt8

/-- What stands at a place. -/
inductive FileNode
  | folder
  | file (content : Bytes)
  /-- A file of no length that keeps nothing of what is written. -/
  | device
deriving DecidableEq

/-- A file system in memory. -/
structure FileTree where
  nodes : Dict Place FileNode

namespace FileTree

/-- The tree that is nothing but its root. -/
def empty : FileTree := ⟨.empty⟩

/-- What stands at a place, if anything does. -/
def node? (t : FileTree) (p : Place) : Option FileNode :=
  if p = [] then some .folder else t.nodes.get? p

/-- Puts a node at a place. -/
def put (t : FileTree) (p : Place) (n : FileNode) : FileTree := ⟨t.nodes.insert p n⟩

/-- Removes what stands at a place, and all below it. -/
def removeAll (t : FileTree) (p : Place) : FileTree := ⟨t.nodes.filter fun q _ => !p.isPrefixOf q⟩

/-- The names directly below a place. -/
def names (t : FileTree) (p : Place) : List String :=
  t.nodes.entries.filterMap fun e => if e.1.dropLast = p then e.1.getLast? else none

/-! ## Ways -/

/-- The bytes that a name has at most. -/
def nameLimit : Nat := 255

/-- The bytes that a path has at most. -/
def pathLimit : Nat := 4095

/-- What is wrong with a path whatever the tree. -/
def objection? (p : Path) : Option SystemError :=
  if p.steps.any (·.toList.contains '\x00') then some .nulInPath
  else if pathLimit < p.text.utf8ByteSize then some .nameTooLong
  else if p.isEmpty then some .notFound
  else none

/-- Where one step leads from a folder. -/
def enter (t : FileTree) (here : Place) (step : String) : Except SystemError Place :=
  if step = "" || step = "." then .ok here
  else if step = ".." then .ok here.dropLast
  else if nameLimit < step.utf8ByteSize then .error .nameTooLong
  else if (t.node? (here ++ [step])).isSome then .ok (here ++ [step])
  else .error .notFound

/-- Where steps lead, each of which ends in a folder. -/
def walk (t : FileTree) (here : Place) : List String → Except SystemError Place
  | [] => .ok here
  | step :: steps => do
    let next ← t.enter here step
    if t.node? next = some .folder then walk t next steps else .error .notADirectory

/-- Where all steps of a path but the last lead. -/
def reachUpper (t : FileTree) (p : Path) : Except SystemError Place :=
  match objection? p with
  | some e => .error e
  | none => t.walk p.start p.steps.dropLast

/-- Where a path leads. -/
def reach (t : FileTree) (p : Path) : Except SystemError Place := do
  let upper ← t.reachUpper p
  t.enter upper (p.steps.getLast?.getD "")

/-- What stands where a path leads. -/
def entry (t : FileTree) (p : Path) : Except SystemError FileNode := do
  let here ← t.reach p
  match t.node? here with
  | some n => .ok n
  | none => .error .notFound

/-- Whether a path leads to something. -/
def exists? (t : FileTree) (p : Path) : Bool := (t.entry p).toOption.isSome

/-- Whether a path leads to a folder. -/
def isFolder (t : FileTree) (p : Path) : Bool :=
  match t.entry p with
  | .ok .folder => true
  | _ => false

/-- Whether a path leads to a file that keeps what is written. -/
def isFile (t : FileTree) (p : Path) : Bool :=
  match t.entry p with
  | .ok (.file _) => true
  | _ => false

/-- The place that a path gives to something new: a name below a folder. -/
def newPlace (t : FileTree) (p : Path) (taken : SystemError) : Except SystemError Place := do
  let upper ← t.reachUpper p
  let name := p.steps.getLast?.getD ""
  if name = "" || name = "." || name = ".." then .error taken
  else if nameLimit < name.utf8ByteSize then .error .nameTooLong
  else .ok (upper ++ [name])

/-! ## Folders -/

/-- Makes one folder. -/
def makeFolder (t : FileTree) (p : Path) : Except SystemError FileTree :=
  match objection? p with
  | some e => .error e
  | none =>
    if p.trimmed.isEmpty then .error .alreadyExists
    else do
      let here ← t.newPlace p.trimmed .alreadyExists
      if (t.node? here).isSome then .error .alreadyExists else .ok (t.put here .folder)

/-- Makes one folder, which may be there already. -/
def ensureFolder (t : FileTree) (p : Path) : Except SystemError Unit × FileTree :=
  match t.makeFolder p with
  | .ok t => (.ok (), t)
  | .error e => if t.isFolder p then (.ok (), t) else (.error e, t)

/-- Makes a folder below others, whose paths follow the nearest first, and those of them that are
    missing. -/
def makeFoldersBelow (t : FileTree) (p : Path) : List Path → Except SystemError Unit × FileTree
  | [] => t.ensureFolder p
  | upper :: uppers =>
    match t.ensureFolder p with
    | (.error .notFound, t) =>
      match makeFoldersBelow t upper uppers with
      | (.ok (), t) => t.ensureFolder p
      | (.error e, t) => (.error e, t)
    | result => result

/-- Makes a folder and the folders that are missing above it. An empty path needs none; where a
    folder cannot be made, those above it stay. -/
def makeFolders (t : FileTree) (p : Path) : Except SystemError Unit × FileTree :=
  if p.isEmpty then (.ok (), t) else t.makeFoldersBelow p p.above

/-! ## Files -/

/-- The contents of a file. -/
def read (t : FileTree) (p : Path) : Except SystemError Bytes :=
  match t.entry p with
  | .ok (.file content) => .ok content
  | .ok .device => .ok []
  | .ok .folder => .error .isADirectory
  | .error e => .error e

/-- Makes an empty file, or empties the file there is. -/
def create (t : FileTree) (p : Path) : Except SystemError FileTree := do
  let here ← t.newPlace p .isADirectory
  match t.node? here with
  | some .folder => .error .isADirectory
  | some .device => .ok t
  | _ => .ok (t.put here (.file []))

/-- Writes behind the contents of a file. -/
def append (t : FileTree) (p : Path) (piece : Bytes) : Except SystemError FileTree := do
  let here ← t.reach p
  match t.node? here with
  | some (.file content) => .ok (t.put here (.file (content ++ piece)))
  | some .device => .ok t
  | some .folder => .error .isADirectory
  | none => .error .notFound

/-- Brings a file to the disk; a device has nothing that could be brought there. -/
def sync (t : FileTree) (p : Path) : Except SystemError FileTree :=
  match t.entry p with
  | .ok .device => .error .invalidArgument
  | _ => .ok t

/-- Moves a file to another path, over a file that stands there. -/
def rename (t : FileTree) (old new : Path) : Except SystemError FileTree := do
  let node ← t.entry old
  if node = .folder then .error .isADirectory
  else
    let here ← t.reach old
    let there ← t.newPlace new .isADirectory
    if t.node? there = some .folder then .error .isADirectory
    else .ok ⟨(t.nodes.erase here).insert there node⟩

end FileTree

end Gatehouse
