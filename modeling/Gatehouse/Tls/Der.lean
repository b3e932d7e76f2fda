import Gatehouse.Tls.Octets

/-!
# Tagged binary contents

Certificates and keys are trees of elements. An element has a tag of one byte, a length and
contents; the length is written in the shortest way there is. The contents of a sequence are
elements in turn, so a reader consumes the contents of one element from left to right.

* `element?`  the first element of some bytes
* `Reader`    what is read from the front of some bytes
* `encode`    an element as it is written
-/

namespace Gatehouse.Tls.Der

/-! ## Tags -/

/-- The tag of a truth value. -/
def booleanTag : UInt8 := 0x01

/-- The tag of a number. -/
def integerTag : UInt8 := 0x02

/-- The tag of bits; the first byte of the contents says how many of the last byte are no bits. -/
def bitsTag : UInt8 := 0x03

/-- The tag of bytes. -/
def bytesTag : UInt8 := 0x04

/-- The tag of nothing. -/
def nullTag : UInt8 := 0x05

/-- The tag of a name of a thing, such as a kind of key. -/
def nameTag : UInt8 := 0x06

/-- The tag of a sequence. -/
def sequenceTag : UInt8 := 0x30

/-- The tag of the part of a sequence that has a number. -/
def partTag (n : UInt8) : UInt8 := 0xa0 + n

/-- The tag of the part of a sequence that has a number and holds no elements. -/
def plainPartTag (n : UInt8) : UInt8 := 0x80 + n

/-! ## Reading -/

/-- The length that stands in front of contents, and the rest. -/
def length? : List UInt8 → Option (Nat × List UInt8)
  | [] => none
  | b :: r =>
    if b < 128 then some (b.toNat, r)
    else
      let n := b.toNat - 128
      let digits := r.take n
      let length := Octets.number digits
      if n = 0 || 4 < n || digits.length < n || digits.head? = some 0 || length < 128 then none
      else some (length, r.drop n)

/-- The tag and the contents of the first element of some bytes, and the rest. -/
def element? : List UInt8 → Option ((UInt8 × List UInt8) × List UInt8)
  | [] => none
  | tag :: r =>
    match length? r with
    | none => none
    | some (n, r) => if r.length < n then none else some ((tag, r.take n), r.drop n)

/-- What is read from the front of some bytes: a result and the rest, or nothing. -/
abbrev Reader := StateT (List UInt8) Option

namespace Reader

/-- Reads all of some bytes: nothing may be left over. -/
def whole? {α : Type} (r : Reader α) (bytes : List UInt8) : Option α :=
  match r.run bytes with
  | some (a, []) => some a
  | _ => none

/-- Reads the beginning of some bytes. -/
def front? {α : Type} (r : Reader α) (bytes : List UInt8) : Option α := (r.run bytes).map (·.1)

/-- Gives something that may be missing. -/
def ofOption {α : Type} (a : Option α) : Reader α := fun bytes => a.map (·, bytes)

/-- Goes on only under a condition. -/
def require (condition : Bool) : Reader Unit := ofOption (if condition then some () else none)

/-- One byte. -/
def byte : Reader UInt8
  | [] => none
  | b :: r => some (b, r)

/-- All bytes that are left. -/
def rest : Reader (List UInt8) := fun bytes => some (bytes, [])

/-- The contents of an element, which has to have a tag. -/
def element (tag : UInt8) : Reader (List UInt8) := fun bytes =>
  match element? bytes with
  | some ((t, body), rest) => if t = tag then some (body, rest) else none
  | none => none

/-- What is read from all of the contents of an element. -/
def inside {α : Type} (tag : UInt8) (r : Reader α) : Reader α := do
  let body ← element tag
  ofOption (r.whole? body)

/-- What is read if an element with a tag comes next. -/
def optional {α : Type} (tag : UInt8) (r : Reader α) : Reader (Option α) := fun bytes =>
  if bytes.head? = some tag then (r.run bytes).map fun (a, rest) => (some a, rest)
  else some (none, bytes)

/-- What is read again and again to the end, so many times at most. -/
def manyUpTo {α : Type} (r : Reader α) : Nat → List UInt8 → Option (List α)
  | _, [] => some []
  | 0, _ => none
  | n + 1, bytes =>
    match r.run bytes with
    | some (a, rest) => (manyUpTo r n rest).map (a :: ·)
    | none => none

/-- What is read again and again to the end, something each time. -/
def many {α : Type} (r : Reader α) : Reader (List α) := fun bytes =>
  (manyUpTo r bytes.length bytes).map (·, [])

/-- A number that is not negative, in as few bytes as its sign allows. -/
def natural : Reader Nat := do
  let body ← element integerTag
  let isShortest := match body with
    | 0 :: b :: _ => 128 ≤ b
    | b :: _ => b < 128
    | [] => false
  require isShortest
  return Octets.number body

/-- Bits that fill their bytes. -/
def bits : Reader (List UInt8) :=
  inside bitsTag do
    let unused ← byte
    require (unused = 0)
    rest

end Reader

/-! ## Writing -/

/-- A length as it is written in front of contents. -/
def encodeLength (n : Nat) : List UInt8 :=
  if n < 128 then [n.toUInt8]
  else
    let digits := Octets.least n
    (128 + digits.length).toUInt8 :: digits

/-- An element as it is written. -/
def encode (tag : UInt8) (body : List UInt8) : List UInt8 := tag :: encodeLength body.length ++ body

/-- A number as it is written: a zero in front keeps it from being negative. -/
def encodeNatural (n : Nat) : List UInt8 :=
  let digits := Octets.least n
  encode integerTag (match digits with
    | b :: _ => if 128 ≤ b then 0 :: digits else digits
    | [] => digits)

/-- Bits that fill their bytes, as they are written. -/
def encodeBits (bytes : List UInt8) : List UInt8 := encode bitsTag (0 :: bytes)

end Gatehouse.Tls.Der
