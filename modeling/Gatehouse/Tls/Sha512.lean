import Gatehouse.Tls.Octets

/-!
# SHA-512

A digest of 64 bytes. The message is filled up to blocks of 128 bytes, and each block is mixed into
a state of eight words in eighty rounds. The first state is made of the square roots of the first
primes, and the constants of the rounds of their cube roots: of each root the first 64 bits behind
the point.

* `digest`  the digest of a message
-/

namespace Gatehouse.Tls.Sha512

/-! ## Constants -/

/-- Whether a number is a prime. -/
def isPrime (n : Nat) : Bool := 2 ≤ n && (List.range n).all fun d => d < 2 || n % d ≠ 0

/-- The first eighty primes. -/
def primes : List Nat := (List.range 410).filter isPrime

/-- The greatest number whose power is not above a bound, of those that agree with `found` in all
    bits but so many. -/
def rootBelow (exponent bound : Nat) : Nat → Nat → Nat
  | 0, found => found
  | bits + 1, found =>
    let next := found + Nat.pow 2 bits
    rootBelow exponent bound bits (if Nat.pow next exponent ≤ bound then next else found)

/-- The first 64 bits behind the point of a root of a number below 512. -/
def rootBits (exponent n : Nat) : UInt64 :=
  (rootBelow exponent (n * Nat.pow 2 (64 * exponent)) 72 0).toUInt64

/-- The state before the first block. -/
def initial : List UInt64 := (primes.take 8).map (rootBits 2)

/-- The constants of the rounds. -/
def roundConstants : List UInt64 := primes.map (rootBits 3)

/-! ## Rounds -/

/-- A word with its bits moved around to the right. -/
def rotate (x n : UInt64) : UInt64 := (x >>> n) ||| (x <<< (64 - n))

/-- The words that the rounds take from a block: after its own sixteen words, each is made of
    earlier ones. The words are listed with the last one first. -/
def schedule : Nat → List UInt64 → List UInt64
  | 0, words => words
  | n + 1, words =>
    let word (back : Nat) : UInt64 := (words[back - 1]?).getD 0
    let small (x a b c : UInt64) : UInt64 := rotate x a ^^^ rotate x b ^^^ (x >>> c)
    schedule n
      ((word 16 + small (word 15) 1 8 7 + word 7 + small (word 2) 19 61 6) :: words)

/-- One round with a constant and a word. -/
def round (state : List UInt64) (constant word : UInt64) : List UInt64 :=
  match state with
  | [a, b, c, d, e, f, g, h] =>
    let large (x i j k : UInt64) : UInt64 := rotate x i ^^^ rotate x j ^^^ rotate x k
    let choice := (e &&& f) ^^^ (~~~e &&& g)
    let majority := (a &&& b) ^^^ (a &&& c) ^^^ (b &&& c)
    let mixed := h + large e 14 18 41 + choice + constant + word
    [mixed + large a 28 34 39 + majority, a, b, c, d + mixed, e, f, g]
  | _ => state

/-- The state after a block of sixteen words. -/
def mix (state : List UInt64) (block : List UInt64) : List UInt64 :=
  let words := (schedule 64 block.reverse).reverse
  let mixed := (roundConstants.zip words).foldl (fun s (k, w) => round s k w) state
  (state.zip mixed).map fun (old, new) => old + new

/-! ## Messages -/

/-- The bytes of a message filled up to whole blocks: a bit that is set, zeros, and the number of
    bits. -/
def filled (message : List UInt8) : List UInt8 :=
  let zeros := (239 - message.length % 128) % 128
  message ++ 0x80 :: List.replicate zeros 0 ++ Octets.fixed 16 (8 * message.length)

/-- Some bytes in pieces of a length that is not zero; a piece that is too short is left away. -/
def pieces (length : Nat) (bytes : List UInt8) : List (List UInt8) :=
  (List.range (bytes.length / length)).map fun n => (bytes.drop (n * length)).take length

/-- The digest of a message. -/
def digest (message : List UInt8) : List UInt8 :=
  let blocks := (pieces 128 (filled message)).map fun block =>
    (pieces 8 block).map fun word => (Octets.number word).toUInt64
  (blocks.foldl mix initial).flatMap fun word => Octets.fixed 8 word.toNat

end Gatehouse.Tls.Sha512
