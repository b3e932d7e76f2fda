/-!
# Reading bytes that should be UTF-8

Where bytes are no UTF-8 they are replaced: each longest run that could still have begun a
character, or else a single byte, becomes one replacement character.
-/

namespace Gatehouse.Text

/-- The first bytes of longer sequences: the range of the byte that follows, and how many more bytes
    follow behind that one. -/
def sequenceShape? (b : UInt8) : Option (UInt8 × UInt8 × Nat) :=
  if 0xC2 ≤ b && b ≤ 0xDF then some (0x80, 0xBF, 0)
  else if b = 0xE0 then some (0xA0, 0xBF, 1)
  else if b = 0xED then some (0x80, 0x9F, 1)
  else if 0xE1 ≤ b && b ≤ 0xEF then some (0x80, 0xBF, 1)
  else if b = 0xF0 then some (0x90, 0xBF, 2)
  else if 0xF1 ≤ b && b ≤ 0xF3 then some (0x80, 0xBF, 2)
  else if b = 0xF4 then some (0x80, 0x8F, 2)
  else none

/-- Whether a byte continues a sequence. -/
def isContinuation (b : UInt8) : Bool := 0x80 ≤ b && b ≤ 0xBF

/-- How many bytes behind the first belong to its sequence, and whether they complete it. -/
def sequenceRest (low high : UInt8) (more : Nat) : List UInt8 → Nat × Bool
  | [] => (0, false)
  | b :: r =>
    if low ≤ b && b ≤ high then
      let run := ((r.take more).takeWhile isContinuation).length
      (run + 1, run == more)
    else (0, false)

/-- The code point of a complete sequence. -/
def codePoint (first : UInt8) (rest : List UInt8) : Nat :=
  let kept := if rest.length = 1 then first.toNat % 32 else if rest.length = 2 then first.toNat % 16
    else first.toNat % 8
  rest.foldl (fun n b => 64 * n + b.toNat % 64) kept

/-- The characters of bytes, of which there are at most so many. -/
def lossyCharsFrom : Nat → List UInt8 → List Char
  | 0, _ => []
  | _, [] => []
  | n + 1, b :: r =>
    if b < 0x80 then Char.ofNat b.toNat :: lossyCharsFrom n r
    else
      match sequenceShape? b with
      | none => '\uFFFD' :: lossyCharsFrom n r
      | some (low, high, more) =>
        let (count, complete) := sequenceRest low high more r
        let c := if complete then Char.ofNat (codePoint b (r.take count)) else '\uFFFD'
        c :: lossyCharsFrom n (r.drop count)

/-- The text of bytes; what is no UTF-8 is replaced. -/
def ofBytesLossy (bytes : List UInt8) : String := String.ofList (lossyCharsFrom bytes.length bytes)

end Gatehouse.Text
