import Gatehouse.FileTree

/-!
# Where the document lies

A document is replaced in steps: a temporary file is made, the bytes are written to it piece by
piece, it is brought to the disk, and it takes the place of the document. Only the last step touches
the document, and it does so at once. `Disk` is any place that these steps can be performed on;
`Folder` is the one in a tree of files.
-/

namespace Gatehouse.Storage

/-- A step on the way to a new document. -/
inductive Step
  | create
  | write (piece : Bytes)
  | sync
  | rename
deriving DecidableEq

/-- The steps that replace the document by pieces of bytes. -/
def replacing (pieces : List Bytes) : List Step := .create :: pieces.map .write ++ [.sync, .rename]

/-- A place that holds one document. -/
class Disk (δ : Type) where
  /-- Makes sure that the place is there. -/
  prepare : δ → Except SystemError Unit × δ
  /-- The bytes of the document, or why they cannot be read; nothing if there is no document. -/
  document? : δ → Option (Except SystemError Bytes)
  /-- Performs a step. A step that fails may leave a temporary file. -/
  perform : Step → δ → Except SystemError Unit × δ

/-- Performs steps up to the first that fails. -/
def performAll {δ : Type} [Disk δ] : List Step → δ → Except SystemError Unit × δ
  | [], d => (.ok (), d)
  | s :: ss, d =>
    match Disk.perform s d with
    | (.ok (), d) => performAll ss d
    | (.error e, d) => (.error e, d)

/-- A folder in a tree of files. -/
structure Folder where
  tree : FileTree
  path : Path

namespace Folder

/-- The path of the document. -/
def dataFile (d : Folder) : Path := d.path.join "keyhold.json"

/-- The path of the temporary file. -/
def tempFile (d : Folder) : Path := d.path.join "keyhold.json.tmp"

/-- Performs a step in the tree of files. -/
def perform (s : Step) (d : Folder) : Except SystemError Unit × Folder :=
  let result : Except SystemError FileTree := match s with
    | .create => d.tree.create d.tempFile
    | .write piece => d.tree.append d.tempFile piece
    | .sync => d.tree.sync d.tempFile
    | .rename => d.tree.rename d.tempFile d.dataFile
  match result with
  | .ok tree => (.ok (), { d with tree })
  | .error e => (.error e, d)

instance : Disk Folder where
  prepare d :=
    let (result, tree) := d.tree.makeFolders d.path
    (result, { d with tree })
  document? d := if d.tree.exists? d.dataFile then some (d.tree.read d.dataFile) else none
  perform := perform

end Folder

end Gatehouse.Storage
