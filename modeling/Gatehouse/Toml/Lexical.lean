/-!
# The lexical level of TOML

Blanks are spaces and tabs, and a line ends with a line feed, alone or behind a carriage return. No
other control character may stand anywhere, in comments neither. Texts come in four forms: in double
quotes with escapes, in single quotes without, and either over several lines between tripled quotes.
-/

namespace Gatehouse.Toml

/-- A parser takes characters from the front; it gives nothing when the text is wrong. -/
abbrev Parser (α : Type) := List Char → Option (α × List Char)

/-- Whether a character may stand between tokens of a line. -/
def isBlankChar (c : Char) : Bool := c == ' ' || c == '\t'

/-- Whether a character may stand in a comment or text: anything but the controls other than the
    tab. -/
def isPlain (c : Char) : Bool := c == '\t' || (0x20 ≤ c.toNat && c.toNat != 0x7F)

/-- Drops blanks from the front. -/
def skipBlanks (s : List Char) : List Char := s.dropWhile isBlankChar

/-- Drops a line end from the front. -/
def newline? : List Char → Option (List Char)
  | '\n' :: r => some r
  | '\r' :: '\n' :: r => some r
  | _ => none

/-- Drops a comment from the front, if there is one. -/
def dropComment : List Char → List Char
  | '#' :: r => r.dropWhile isPlain
  | s => s

/-- The rest of a line holds nothing but blanks and a comment; the last line needs no end. -/
def lineEnd? (s : List Char) : Option (List Char) :=
  match dropComment (skipBlanks s) with
  | [] => some []
  | s => newline? s

/-- Drops at most so many complete blank or comment lines, and the blanks behind them. -/
def skipLinesFrom : Nat → List Char → List Char
  | 0, s => s
  | n + 1, s =>
    match newline? (dropComment (skipBlanks s)) with
    | some r => skipLinesFrom n r
    | none => skipBlanks s

/-- Drops blanks, line ends and comments from the front. -/
def skipLines (s : List Char) : List Char := skipLinesFrom (s.length + 1) s

/-- Drops blanks and line ends from the front; comments stay. -/
def skipBlankLines : List Char → List Char
  | '\r' :: '\n' :: r => skipBlankLines r
  | c :: r => if isBlankChar c || c == '\n' then skipBlankLines r else c :: r
  | [] => []

/-! ## Texts -/

/-- The value of a hexadecimal digit. -/
def hexValue? (c : Char) : Option Nat :=
  if c.isDigit then some (c.toNat - '0'.toNat)
  else if 'a' ≤ c && c ≤ 'f' then some (c.toNat - 'a'.toNat + 10)
  else if 'A' ≤ c && c ≤ 'F' then some (c.toNat - 'A'.toNat + 10)
  else none

/-- The character whose code point stands in front with exactly so many hexadecimal digits. -/
def hexChar? (digits : Nat) (s : List Char) : Option (Char × List Char) := do
  let ds ← (s.take digits).mapM hexValue?
  let n := ds.foldl (fun n d => 16 * n + d) 0
  if ds.length = digits && n.isValidChar then some (Char.ofNat n, s.drop digits) else none

/-- The character that an escape stands for; the backslash has been read. -/
def escape? : Parser Char
  | 'b' :: r => some ('\x08', r)
  | 't' :: r => some ('\t', r)
  | 'n' :: r => some ('\n', r)
  | 'f' :: r => some ('\x0c', r)
  | 'r' :: r => some ('\r', r)
  | '"' :: r => some ('"', r)
  | '\\' :: r => some ('\\', r)
  | 'u' :: r => hexChar? 4 r
  | 'U' :: r => hexChar? 8 r
  | _ => none

/-- A text on one line up to its closing quote. Escapes are resolved if it has any. The number
    bounds the length of the text. -/
def lineText (quote : Char) (escapes : Bool) : Nat → Parser (List Char)
  | 0, _ => none
  | _, [] => none
  | n + 1, c :: r =>
    if c = quote then some ([], r)
    else if escapes && c = '\\' then do
      let (e, r) ← escape? r
      let (cs, r) ← lineText quote escapes n r
      return (e :: cs, r)
    else if isPlain c then do
      let (cs, r) ← lineText quote escapes n r
      return (c :: cs, r)
    else none

/-- A text over several lines up to its three closing quotes, in front of which two more quotes may
    stand for themselves. A backslash at the end of a line drops the line end and all blank space
    behind it. The number bounds the length of the text. -/
def blockText (quote : Char) (escapes : Bool) : Nat → Parser (List Char)
  | 0, _ => none
  | _, [] => none
  | n + 1, c :: r =>
    if c = quote then
      let run := (c :: r).takeWhile (· = quote)
      if 3 ≤ run.length then
        let own := min (run.length - 3) 2
        some (List.replicate own quote, (c :: r).drop (own + 3))
      else do
        let (cs, r) ← blockText quote escapes n r
        return (c :: cs, r)
    else if escapes && c = '\\' then
      match newline? (skipBlanks r) with
      | some r => blockText quote escapes n (skipBlankLines r)
      | none => do
        let (e, r) ← escape? r
        let (cs, r) ← blockText quote escapes n r
        return (e :: cs, r)
    else
      match newline? (c :: r) with
      | some r => do
        let (cs, r) ← blockText quote escapes n r
        return ('\n' :: cs, r)
      | none =>
        if isPlain c then do
          let (cs, r) ← blockText quote escapes n r
          return (c :: cs, r)
        else none

/-- A text in one of the four forms. A line end directly behind three opening quotes does not
    count. -/
def text : Parser String := fun s => do
  let (cs, r) ← match s with
    | '"' :: '"' :: '"' :: r =>
      let r := (newline? r).getD r
      blockText '"' true (r.length + 1) r
    | '"' :: r => lineText '"' true (r.length + 1) r
    | '\x27' :: '\x27' :: '\x27' :: r =>
      let r := (newline? r).getD r
      blockText '\x27' false (r.length + 1) r
    | '\x27' :: r => lineText '\x27' false (r.length + 1) r
    | _ => none
  return (String.ofList cs, r)

/-! ## Keys -/

/-- Whether a character may stand in a key without quotes. -/
def isBareKeyChar (c : Char) : Bool := c.isAlphanum || c == '-' || c == '_'

/-- One part of a key: bare, or a text on one line. -/
def keyPart : Parser String := fun s =>
  match s with
  | '"' :: r => (lineText '"' true (r.length + 1) r).map fun (cs, r) => (String.ofList cs, r)
  | '\x27' :: r => (lineText '\x27' false (r.length + 1) r).map fun (cs, r) => (String.ofList cs, r)
  | s =>
    match s.takeWhile isBareKeyChar with
    | [] => none
    | cs => some (String.ofList cs, s.dropWhile isBareKeyChar)

/-- A key of at most so many parts with points between them; blanks may stand around each part. -/
def keyFrom : Nat → Parser (List String)
  | 0, _ => none
  | n + 1, s => do
    let (k, r) ← keyPart (skipBlanks s)
    match skipBlanks r with
    | '.' :: r => do
      let (ks, r) ← keyFrom n r
      return (k :: ks, r)
    | r => return ([k], r)

/-- A key has fewer than eighty parts. -/
def key : Parser (List String) := keyFrom 79

end Gatehouse.Toml
