import Gatehouse.Toml.Scalar
import Gatehouse.Toml.Table

/-!
# TOML documents

A document is a list of statements, one a line: a key with its value, the header of a table, or the
header of one more table of a list. The pairs behind a header belong to its table. Arrays may run
over lines and end with a comma; an inline table stands on one line and may not. Arrays and inline
tables enclose each other less than eighty deep.
-/

namespace Gatehouse.Toml

/-! ## Values -/

/-- The items of an array behind its bracket; a comma may stand behind the last. The number bounds
    how many there are. -/
def items (item : Parser Value) : Nat → Parser (List Value)
  | 0, _ => none
  | n + 1, s =>
    match skipLines s with
    | ']' :: r => some ([], r)
    | s => do
      let (v, r) ← item s
      match skipLines r with
      | ',' :: r => do
        let (vs, r) ← items item n r
        return (v :: vs, r)
      | ']' :: r => return ([v], r)
      | _ => none

/-- A key, the equals sign and a value. -/
def pair (item : Parser Value) : Parser (List String × Value) := fun s => do
  let (k, r) ← key s
  match r with
  | '=' :: r => do
    let (v, r) ← item (skipBlanks r)
    return ((k, v), r)
  | _ => none

/-- The pairs of an inline table, of which one must follow. The number bounds how many there are. -/
def pairs (item : Parser Value) : Nat → Parser (List (List String × Value))
  | 0, _ => none
  | n + 1, s => do
    let (p, r) ← pair item s
    match skipBlanks r with
    | ',' :: r => do
      let (ps, r) ← pairs item n r
      return (p :: ps, r)
    | '}' :: r => return ([p], r)
    | _ => none

/-- An inline table behind its brace. -/
def inlineTable (item : Parser Value) : Parser Value := fun s =>
  match skipBlanks s with
  | '}' :: r => some (.object [], r)
  | s => do
    let (ps, r) ← pairs item (s.length + 1) s
    return (.object (fieldsToValues (← Fields.setAll [] ps)), r)

/-- A value that encloses others at most so deep. -/
def value (depth : Nat) : Parser Value := fun s =>
  match s with
  | '"' :: _ => (text s).map fun (t, r) => (.text t, r)
  | '\x27' :: _ => (text s).map fun (t, r) => (.text t, r)
  | 't' :: 'r' :: 'u' :: 'e' :: r => some (.bool true, r)
  | 'f' :: 'a' :: 'l' :: 's' :: 'e' :: r => some (.bool false, r)
  | '[' :: r =>
    match depth with
    | 0 => none
    | depth + 1 => (items (value depth) (r.length + 1) r).map fun (vs, r) => (.array vs, r)
  | '{' :: r =>
    match depth with
    | 0 => none
    | depth + 1 => inlineTable (value depth) r
  | s => numeric s

/-! ## Statements -/

/-- A table that a header names, with the pairs behind it. -/
structure Section where
  /-- Whether the header adds a table to a list. -/
  listed : Bool
  path : List String
  pairs : List (List String × Value)

/-- One line of a document that says something. -/
inductive Statement
  | pair (path : List String) (v : Value)
  | header (listed : Bool) (path : List String)

/-- The deepest nesting of values that is read. -/
def maxDepth : Nat := 79

/-- A statement up to the end of its line. -/
def statement : Parser Statement := fun s => do
  match s with
  | '[' :: '[' :: r => do
    let (path, r) ← key r
    match r with
    | ']' :: ']' :: r => return (.header true path, ← lineEnd? r)
    | _ => none
  | '[' :: r => do
    let (path, r) ← key r
    match r with
    | ']' :: r => return (.header false path, ← lineEnd? r)
    | _ => none
  | s => do
    let ((path, v), r) ← pair (value maxDepth) s
    return (.pair path v, ← lineEnd? r)

/-- The statements of a text, of which there are at most so many. -/
def statementsFrom : Nat → List Char → Option (List Statement)
  | 0, _ => none
  | n + 1, s =>
    match skipLines s with
    | [] => some []
    | s =>
      -- A last line may be a comment without an end.
      if (dropComment s).isEmpty then some []
      else do
        let (a, r) ← statement s
        return a :: (← statementsFrom n r)

/-- The pairs in front of the first header, and the sections. -/
def sections : List Statement → List (List String × Value) × List Section
  | [] => ([], [])
  | .pair path v :: rest =>
    let (ps, ss) := sections rest
    ((path, v) :: ps, ss)
  | .header listed path :: rest =>
    let (ps, ss) := sections rest
    ([], ⟨listed, path, ps⟩ :: ss)

/-! ## Documents -/

/-- Adds a section to the table of the document. -/
def Section.addTo (fs : Fields) (s : Section) : Option Fields := do
  let last ← s.path.getLast?
  Fields.change false (fun _ inner =>
    match s.listed, Fields.node? inner last with
    | false, none => do Fields.add inner last (.table false false (← Fields.setAll [] s.pairs))
    | false, some (.table true false old) => do
      return Fields.replace inner last (.table false false (← Fields.setAll old s.pairs))
    | true, none => do Fields.add inner last (.tables [← Fields.setAll [] s.pairs])
    | true, some (.tables all) => do
      return Fields.replace inner last (.tables ((← Fields.setAll [] s.pairs) :: all))
    | _, _ => none)
    s.path.dropLast false fs

/-- The object that a text describes. -/
def read? (text : String) : Option Value := do
  let s := match text.toList with
    | '\uFEFF' :: s => s
    | s => s
  let (own, rest) := sections (← statementsFrom (s.length + 1) s)
  let fs ← rest.foldlM Section.addTo (← Fields.setAll [] own)
  return .object (fieldsToValues fs)

end Gatehouse.Toml
