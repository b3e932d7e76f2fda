import Gatehouse.Text.Utf8

/-!
# Text without control sequences

What a terminal would take for commands is left out of a text that goes elsewhere: the sequences
that begin with the escape character, and all control characters that are not white space. White
space inside a sequence breaks it off and stays, but what is between the beginning of a string
command and its end is left out with everything in it.

* `Mode.next`  what a byte does
* `plain`      what remains of a text
-/

namespace Gatehouse.Text

/-- What the bytes in front of a point have begun. -/
inductive Mode
  | ground
  /-- A character of which so many bytes are to come. -/
  | character (more : Nat)
  | escape
  | escapeParameters
  /-- A control sequence, which ends with a letter or a sign from `@` to `~`. -/
  | control
  /-- The beginning of a device command, whose letter is to come; whether its parameters have begun,
      and whether they are over. -/
  | deviceBeginning (begun ended : Bool)
  /-- What ends with the byte 0x9c alone. -/
  | deviceString
  /-- A command of the operating system, which ends with a bell. -/
  | systemString
deriving DecidableEq

/-- Whether a byte is a white space that stays. -/
def isKeptBlank (b : UInt8) : Bool := b = 0x09 || b = 0x0a || b = 0x0c || b = 0x0d

/-- How many bytes continue the character that a byte begins, if it begins one. -/
def continuation? (b : UInt8) : Option Nat := (sequenceShape? b).map fun (_, _, more) => more + 1

/-- What a byte that begins nothing does on the ground: whether it stays, and what it begins. -/
def onGround (b : UInt8) : Bool × Mode :=
  match continuation? b with
  | some n => (true, .character n)
  | none => ((0x20 ≤ b && b < 0x7f) || isKeptBlank b, .ground)

/-- What an escape character and a byte begin. -/
def afterEscape (b : UInt8) : Mode :=
  if b < 0x20 || 0x7f ≤ b then .escape
  else if b < 0x30 then .escapeParameters
  else if b = 0x5b then .control
  else if b = 0x5d then .systemString
  else if b = 0x50 then .deviceBeginning false false
  else if b = 0x58 || b = 0x5e || b = 0x5f then .deviceString
  else .ground

/-- What the beginning of a device command and a byte begin. -/
def afterDevice (begun ended : Bool) (b : UInt8) : Mode :=
  if b < 0x20 || 0x7f ≤ b then .deviceBeginning begun ended
  else if b < 0x30 then .deviceBeginning begun true
  else if b < 0x40 then
    if ended || (begun && 0x3c ≤ b) then .deviceString else .deviceBeginning true false
  else .deviceString

namespace Mode

/-- What a byte does: whether it stays, and what it begins or goes on with. -/
def next (m : Mode) (b : UInt8) : Bool × Mode :=
  if b = 0x18 || b = 0x1a then (false, .ground)
  else if b = 0x1b then (false, .escape)
  else
    match m with
    | ground => onGround b
    | character n => (true, if n ≤ 1 then .ground else .character (n - 1))
    | escape => if isKeptBlank b then (true, .ground) else (false, afterEscape b)
    | escapeParameters =>
      if isKeptBlank b then (true, .ground)
      else (false, if 0x30 ≤ b && b < 0x7f then .ground else .escapeParameters)
    | control =>
      if isKeptBlank b then (true, .ground)
      else (false, if 0x40 ≤ b && b < 0x7f then .ground else .control)
    | deviceBeginning begun ended => (false, afterDevice begun ended b)
    | deviceString => (false, if b = 0x9c then .ground else .deviceString)
    | systemString => (false, if b = 0x07 then .ground else .systemString)

end Mode

/-- What remains of bytes. -/
def plainBytes (m : Mode) : List UInt8 → List UInt8
  | [] => []
  | b :: r =>
    match m.next b with
    | (true, m) => b :: plainBytes m r
    | (false, m) => plainBytes m r

/-- What remains of a text. -/
def plain (s : String) : String := ofBytesLossy (plainBytes .ground s.toUTF8.toList)

end Gatehouse.Text
