import Gatehouse.Json.Number
import Gatehouse.SortedMap

/-!
# Reading JSON

A parser takes the bytes that are left and gives what it read and the bytes behind. Arrays and
objects may enclose each other 127 deep. A text that stops before it is complete is `truncated`, one
that is wrong at some byte is `malformed`, and one that is right as JSON but not of the shape asked
for is `mismatched`; the fault found first, in reading order, is the one reported.

* `value`     reads any value below a given depth
* `fields`    reads the fields of an object with a parser of one's own for each value
* `mismatch`  reads as far as the kind of a value shows, and refuses it
* `whole`     runs a parser over a complete text
-/

namespace Gatehouse.Json

/-- Why a text cannot be read. -/
inductive Fault
  | malformed
  | truncated
  | mismatched
deriving DecidableEq, Repr

abbrev Bytes := List UInt8

/-- A parser takes bytes from the front. -/
abbrev Parser (α : Type) := Bytes → Except Fault (α × Bytes)

/-- The deepest nesting that is read. -/
def maxDepth : Nat := 127

/-- The byte of an ASCII character. -/
def byte (c : Char) : UInt8 := c.toNat.toUInt8

/-- The four bytes that may stand between tokens. -/
def isBlankByte (b : UInt8) : Bool :=
  b == byte ' ' || b == byte '\n' || b == byte '\t' || b == byte '\r'

/-- Drops blanks from the front. -/
def skipBlanks (s : Bytes) : Bytes := s.dropWhile isBlankByte

def isDigitByte (b : UInt8) : Bool := byte '0' ≤ b && b ≤ byte '9'

/-- The bytes of a fixed word must follow. -/
def expect : Bytes → Bytes → Except Fault Bytes
  | [], s => .ok s
  | _ :: _, [] => .error .truncated
  | w :: ws, b :: s => if b = w then expect ws s else .error .malformed

/-! ## Numbers -/

/-- The digits in front, by value, and the bytes behind them. -/
def spanDigitBytes (s : Bytes) : List Nat × Bytes :=
  ((s.takeWhile isDigitByte).map fun b => (b - byte '0').toNat, s.dropWhile isDigitByte)

/-- The digits of a point that has been read: at least one. -/
def fractionDigits (s : Bytes) : Except Fault (List Nat × Bytes) :=
  match spanDigitBytes s with
  | ([], []) => .error .truncated
  | ([], _ :: _) => .error .malformed
  | (ds, rest) => .ok (ds, rest)

/-- The sign and digits of a power whose letter has been read. -/
def powerDigits (s : Bytes) : Except Fault ((Bool × List Nat) × Bytes) := do
  let (down, s) := match s with
    | [] => (false, s)
    | b :: rest => if b = byte '+' then (false, rest) else if b = byte '-' then (true, rest) else (false, s)
  let (ds, rest) ← fractionDigits s
  return ((down, ds), rest)

/-- The digits before the point: at least one, and a zero in front stands alone. -/
def wholeDigits : Parser (List Nat) := fun s =>
  match spanDigitBytes s with
  | ([], []) => .error .truncated
  | ([], _ :: _) => .error .malformed
  | (0 :: _ :: _, _) => .error .malformed
  | (ds, rest) => .ok (ds, rest)

/-- The digits behind the point, if there is one. -/
def fraction? : Parser (Option (List Nat))
  | [] => .ok (none, [])
  | b :: s => if b = byte '.' then (fractionDigits s).map (.map some id) else .ok (none, b :: s)

/-- The sign and digits of the power, if there is one. -/
def power? : Parser (Option (Bool × List Nat))
  | [] => .ok (none, [])
  | b :: s =>
    if b = byte 'e' || b = byte 'E' then (powerDigits s).map (.map some id) else .ok (none, b :: s)

/-- A number whose sign has been read. -/
def numberBehindSign (negative : Bool) : Parser Value := fun s => do
  let (whole, s) ← wholeDigits s
  let (fraction, s) ← fraction? s
  let (power, s) ← power? s
  match NumberParts.value? ⟨negative, whole, fraction, power⟩ with
  | some v => return (v, s)
  | none => throw .malformed

/-! ## Texts -/

/-- The value of a hexadecimal digit. -/
def hexDigit? (b : UInt8) : Option Nat :=
  if isDigitByte b then some (b - byte '0').toNat
  else if byte 'a' ≤ b && b ≤ byte 'f' then some ((b - byte 'a').toNat + 10)
  else if byte 'A' ≤ b && b ≤ byte 'F' then some ((b - byte 'A').toNat + 10)
  else none

/-- The number of four hexadecimal digits. -/
def hex4? (a b c d : UInt8) : Option Nat := do
  return (((← hexDigit? a) * 16 + (← hexDigit? b)) * 16 + (← hexDigit? c)) * 16 + (← hexDigit? d)

/-- The byte that a one-letter escape stands for. -/
def shortEscape? (b : UInt8) : Option UInt8 :=
  if b = byte '"' || b = byte '\\' || b = byte '/' then some b
  else if b = byte 'b' then some 0x08
  else if b = byte 'f' then some 0x0C
  else if b = byte 'n' then some 0x0A
  else if b = byte 'r' then some 0x0D
  else if b = byte 't' then some 0x09
  else none

/-- The UTF-8 bytes of a code point. -/
def utf8 (n : Nat) : Bytes := String.utf8EncodeChar (Char.ofNat n)

/-- The bytes of a text up to its closing quote, escapes resolved. A code point above the
    sixteen-bit range is escaped as a pair of surrogates; half a pair is refused. -/
def textBytes : Parser Bytes
  | [] => .error .truncated
  | 0x5C :: 0x75 :: a :: b :: c :: d :: rest =>
    match hex4? a b c d with
    | none => .error .malformed
    | some n =>
      if 0xDC00 ≤ n && n ≤ 0xDFFF then .error .malformed
      else if 0xD800 ≤ n && n ≤ 0xDBFF then
        match rest with
        | 0x5C :: 0x75 :: e :: f :: g :: h :: rest =>
          match hex4? e f g h with
          | none => .error .malformed
          | some m =>
            if m < 0xDC00 || 0xDFFF < m then .error .malformed
            else
              (textBytes rest).map fun r =>
                (utf8 (0x10000 + (n - 0xD800) * 0x400 + (m - 0xDC00)) ++ r.1, r.2)
        | [] => .error .truncated
        | [0x5C] => .error .truncated
        | 0x5C :: 0x75 :: _ => .error .truncated
        | _ => .error .malformed
      else (textBytes rest).map fun r => (utf8 n ++ r.1, r.2)
  | 0x5C :: 0x75 :: _ => .error .truncated
  | [0x5C] => .error .truncated
  | 0x5C :: b :: rest =>
    match shortEscape? b with
    | none => .error .malformed
    | some x => (textBytes rest).map fun r => (x :: r.1, r.2)
  | 0x22 :: rest => .ok ([], rest)
  | b :: rest =>
    if b < 0x20 then .error .malformed
    else (textBytes rest).map fun r => (b :: r.1, r.2)

/-- A text whose opening quote has been read. -/
def textBehindQuote : Parser String := fun s => do
  let (bs, rest) ← textBytes s
  match String.fromUTF8? ⟨bs.toArray⟩ with
  | some t => return (t, rest)
  | none => throw .malformed

/-! ## Arrays and objects -/

/-- Items up to the closing bracket, one of which must follow. The first argument bounds their
    number. -/
def itemsFrom (item : Parser α) : Nat → Parser (List α)
  | 0, _ => .error .malformed
  | n + 1, s => do
    let (v, s) ← item (skipBlanks s)
    match skipBlanks s with
    | [] => throw .truncated
    | b :: rest =>
      if b = byte ',' then
        let (vs, rest) ← itemsFrom item n rest
        return (v :: vs, rest)
      else if b = byte ']' then return ([v], rest)
      else throw .malformed

/-- The items of an array whose opening bracket has been read. -/
def items (item : Parser α) : Parser (List α) := fun s =>
  match skipBlanks s with
  | [] => .error .truncated
  | b :: rest => if b = byte ']' then .ok ([], rest) else itemsFrom item (b :: rest).length (b :: rest)

/-- The colon between a name and its value. -/
def colon (s : Bytes) : Except Fault Bytes :=
  match skipBlanks s with
  | [] => .error .truncated
  | b :: rest => if b = byte ':' then .ok rest else .error .malformed

/-- Fields up to the closing brace, one of which must follow. `field` goes on from what the fields
    before gave; it reads the colon itself. The first number bounds how many fields there are. -/
def fieldsFrom (field : σ → String → Parser σ) : Nat → σ → Parser σ
  | 0, _, _ => .error .malformed
  | n + 1, acc, s =>
    match skipBlanks s with
    | [] => .error .truncated
    | b :: rest =>
      if b ≠ byte '"' then .error .malformed
      else do
        let (name, rest) ← textBehindQuote rest
        let (acc, rest) ← field acc name rest
        match skipBlanks rest with
        | [] => throw .truncated
        | b :: rest =>
          if b = byte ',' then fieldsFrom field n acc rest
          else if b = byte '}' then return (acc, rest)
          else throw .malformed

/-- The fields of an object whose opening brace has been read. -/
def fields (init : σ) (field : σ → String → Parser σ) : Parser σ := fun s =>
  match skipBlanks s with
  | [] => .error .truncated
  | b :: rest =>
    if b = byte '}' then .ok (init, rest)
    else fieldsFrom field (b :: rest).length init (b :: rest)

/-- Any value with at most the given depth. The fields of an object stand in increasing order of
    their names, the last of two fields with one name. -/
def value (depth : Nat) : Parser Value := fun s =>
  match skipBlanks s with
  | [] => .error .truncated
  | b :: rest =>
    if b = byte 'n' then do return (.null, ← expect ("ull".toList.map byte) rest)
    else if b = byte 't' then do return (.bool true, ← expect ("rue".toList.map byte) rest)
    else if b = byte 'f' then do return (.bool false, ← expect ("alse".toList.map byte) rest)
    else if b = byte '-' then numberBehindSign true rest
    else if isDigitByte b then numberBehindSign false (b :: rest)
    else if b = byte '"' then do
      let (t, rest) ← textBehindQuote rest
      return (.text t, rest)
    else
      match depth with
      | 0 => .error .malformed
      | depth + 1 =>
        if b = byte '[' then do
          let (vs, rest) ← items (value depth) rest
          return (.array vs, rest)
        else if b = byte '{' then do
          let (fs, rest) ← fields [] (fun fs name s => do
            let (v, rest) ← value depth (← colon s)
            return (SortedMap.insertEntry name v fs, rest)) rest
          return (.object fs, rest)
        else .error .malformed

/-! ## Values of one kind -/

/-- Refuses a value: a scalar once it is read, an array or object at its opening. -/
def mismatch : Parser α := fun s =>
  match skipBlanks s with
  | [] => .error .truncated
  | b :: rest =>
    if b = byte '[' || b = byte '{' then .error .mismatched
    else do
      let _ ← value 0 (b :: rest)
      throw .mismatched

/-- An object with at most the given depth. -/
def object (depth : Nat) (init : σ) (field : Nat → σ → String → Parser σ) : Parser σ := fun s =>
  match skipBlanks s with
  | [] => .error .truncated
  | b :: rest =>
    if b ≠ byte '{' then mismatch (b :: rest)
    else
      match depth with
      | 0 => .error .malformed
      | depth + 1 => fields init (field depth) rest

/-- A text. -/
def text : Parser String := fun s =>
  match skipBlanks s with
  | [] => .error .truncated
  | b :: rest => if b = byte '"' then textBehindQuote rest else mismatch (b :: rest)

/-- An integer from 0 to `2^64 - 1`. -/
def unsigned : Parser Nat := fun s =>
  match skipBlanks s with
  | [] => .error .truncated
  | b :: rest =>
    if b = byte '-' || isDigitByte b then do
      match ← value 0 (b :: rest) with
      | (.int (.ofNat n), rest) => return (n, rest)
      | _ => throw .mismatched
    else mismatch (b :: rest)

/-- Runs a parser over a complete text, behind which only blanks may stand. -/
def whole (p : Parser α) (s : Bytes) : Except Fault α := do
  let (a, rest) ← p s
  if (skipBlanks rest).isEmpty then return a else throw .malformed

end Gatehouse.Json
