/-!
# Request targets

A request names its target in one of four forms: a path, an absolute address `scheme://authority`
with a path behind it, an authority alone, or `*`. Of a target only the path matters: what stands
between the authority and the query or fragment, `/` if an absolute address has none, and nothing if
there is an authority alone.
-/

namespace Gatehouse.Http.Target

/-- The longest target, in bytes. -/
def maxLength : Nat := 65534

/-- How many characters the name of a scheme may have. -/
def maxSchemeLength : Nat := 64

/-- Whether a character may stand in a path. -/
def isPathChar (c : Char) : Bool :=
  let n := c.toNat
  n = 0x21 || n = 0x22 || (0x24 ≤ n && n ≤ 0x3b) || n = 0x3d || (0x40 ≤ n && n ≤ 0x5f)
    || (0x61 ≤ n && n ≠ 0x7f)

/-- Whether a character may stand in a query. -/
def isQueryChar (c : Char) : Bool :=
  let n := c.toNat
  n = 0x21 || (0x24 ≤ n && n ≤ 0x3b) || n = 0x3d || (0x3f ≤ n && n ≠ 0x7f)

/-- Whether a query, up to the fragment, has no character that may not stand there. -/
def isQuery (cs : List Char) : Bool := (cs.takeWhile (· ≠ '#')).all isQueryChar

/-- The path of a target that has no authority, or of what is behind the authority. -/
def pathOf? (cs : List Char) : Option String :=
  let path := cs.takeWhile isPathChar
  let whole := some (String.ofList path)
  match cs.dropWhile isPathChar with
  | [] => whole
  | '?' :: query => if isQuery query then whole else none
  | '#' :: _ => whole
  | _ => none

/-- Whether a character may stand in the name of a scheme. -/
def isSchemeChar (c : Char) : Bool := c.isAlphanum || c = '+' || c = '-' || c = '.' || c = '~'

/-- What is behind `scheme://`, if a target begins so, and whether the scheme is short enough. -/
def afterScheme? (cs : List Char) : Option (List Char × Bool) :=
  let scheme := cs.takeWhile isSchemeChar
  match cs.dropWhile isSchemeChar with
  | ':' :: '/' :: '/' :: rest => some (rest, scheme.length ≤ maxSchemeLength)
  | _ => none

/-- Whether a character may stand in an authority, the percent sign apart. -/
def isAuthorityChar (c : Char) : Bool :=
  c.isAlphanum || ['!', '#', '$', '&', '\x27', '(', ')', '*', '+', ',', '-', '.', '/', ':', ';', '=', '?',
    '@', '[', ']', '_', '~'].contains c

/-- What has been seen of an authority: colons and percent signs since the last `@` or `]`, the two
    brackets, and whether the last character was an `@`. -/
structure Seen where
  colons : Nat := 0
  percent : Bool := false
  opened : Bool := false
  closed : Bool := false
  endsInAt : Bool := false

namespace Seen

/-- Reads the next character, if it may stand there. -/
def next? (s : Seen) (c : Char) : Option Seen :=
  let s := { s with endsInAt := false }
  match c with
  | ':' => if 8 ≤ s.colons then none else some { s with colons := s.colons + 1 }
  | '[' => if s.percent || s.opened then none else some { s with opened := true }
  | ']' =>
    if !s.opened || s.closed then none
    else some { s with closed := true, colons := 0, percent := false }
  | '@' => some { s with colons := 0, percent := false, endsInAt := true }
  | '%' => some { s with percent := true }
  | c => if isAuthorityChar c then some s else none

/-- Whether the authority may end here: brackets come in pairs, and behind the last `@` or `]` there
    is something after the `@`, at most one colon and no percent sign. -/
def mayEnd (s : Seen) : Bool :=
  s.opened == s.closed && s.colons ≤ 1 && !s.endsInAt && !s.percent

end Seen

/-- Whether a character ends the authority. -/
def endsAuthority (c : Char) : Bool := c = '/' || c = '?' || c = '#'

/-- Whether a text is an authority or empty. -/
def isAuthority (cs : List Char) : Bool := (cs.foldlM Seen.next? {}).any Seen.mayEnd

/-- The path of a target that begins with no slash. -/
def fullPath? (cs : List Char) : Option String :=
  match afterScheme? cs with
  | some (_, false) => none
  | some (rest, true) =>
    let authority := rest.takeWhile (!endsAuthority ·)
    if isAuthority authority && !authority.isEmpty then
      (pathOf? (rest.dropWhile (!endsAuthority ·))).map fun p => if p.isEmpty then "/" else p
    else none
  | none => if isAuthority cs && cs.all (!endsAuthority ·) then some "" else none

/-- The path of a target, if the text is a target. -/
def path? (s : String) : Option String :=
  if s.isEmpty || maxLength < s.utf8ByteSize then none
  else if s = "*" then some "*"
  else if s.toList.head? = some '/' then pathOf? s.toList
  else fullPath? s.toList

end Gatehouse.Http.Target
