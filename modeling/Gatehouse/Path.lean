/-!
# Paths

A `Path` is what a person writes to say where a file is: steps with slashes between them, and the
folder from which they are seen. What it leads to depends on the files there are: `.` and `..` mean
nothing without them. A `Place` is where something stands, told by the names on the way to it.

* `Path.ofText`  the path that a text denotes
* `Path.join`    the path of a name below a path
* `Path.above`   the paths of the folders above
-/

namespace Gatehouse

/-- Where something stands: the names on the way to it from the root. -/
abbrev Place := List String

/-- What stands between the slashes of a text, and the folder from which it is seen. -/
structure Path where
  base : Place
  steps : List String
deriving DecidableEq

namespace Path

/-- The path that a text denotes, seen from a folder. -/
def ofText (base : Place) (s : String) : Path := ⟨base, s.splitOn "/"⟩

/-- The path that leads to a place. -/
def ofPlace (p : Place) : Path := ⟨[], "" :: p⟩

/-- The path as it is written. -/
def text (p : Path) : String := "/".intercalate p.steps

/-- Whether nothing is written. -/
def isEmpty (p : Path) : Bool := p.steps = [] || p.steps = [""]

/-- Whether the path leads from the root: a slash comes first. -/
def isAbsolute (p : Path) : Bool := p.steps.head? = some "" && !p.isEmpty

/-- Where the path leads from. -/
def start (p : Path) : Place := if p.isAbsolute then [] else p.base

/-- The steps without the last one, if that is empty. -/
def openSteps (p : Path) : List String :=
  if p.steps.getLast? = some "" then p.steps.dropLast else p.steps

/-- The path of a name below a path. -/
def join (p : Path) (name : String) : Path := ⟨p.base, p.openSteps ++ [name]⟩

/-- The steps that lead on: an empty one does not, and a point does not but at the beginning of a
    path that is not absolute. -/
def properSteps (p : Path) : List String :=
  let leadsOn := fun s => !(s = "" || s = ".")
  match p.steps with
  | "." :: more => "." :: more.filter leadsOn
  | all => all.filter leadsOn

/-- The paths of the folders above, the nearest first. -/
def above (p : Path) : List Path :=
  let steps := p.properSteps
  let lead := if p.isAbsolute then [""] else []
  ((List.range steps.length).filter fun n => 0 < n).reverse.map fun n =>
    ⟨p.base, lead ++ steps.take n⟩

/-- The path without the slashes at its end. -/
def trimmed (p : Path) : Path := ⟨p.base, (p.steps.reverse.dropWhile (· = "")).reverse⟩

/-- The places on the way, if no folder is missing. -/
def places (p : Path) : List Place :=
  (p.steps.foldl (fun (here, all) s =>
    let here := if s = "" || s = "." then here else if s = ".." then here.dropLast else here ++ [s]
    (here, all ++ [here])) (p.start, [p.start])).2

end Path

end Gatehouse
