/-!
# Addresses of peers

A client is known by the address of its peer. The written form of a peer is an address and a port:
four decimal bytes and the port behind a colon, or eight hexadecimal groups in brackets, then a
colon and the port. A run of zero groups may be left out once as `::`, and the last two groups may
be written as four decimal bytes.
-/

namespace Gatehouse.Http

/-- An address of four bytes, or of eight groups of two bytes. -/
inductive Address
  | four (bytes : List UInt8)
  | six (groups : List UInt16)
deriving DecidableEq

namespace Address

/-! ## Reading

A reader gives what it found and the rest of the text. -/

/-- The value of a digit in a base up to sixteen. -/
def digit? (base : Nat) (c : Char) : Option Nat :=
  let n :=
    if c.isDigit then c.toNat - '0'.toNat
    else if 'a' ≤ c ∧ c ≤ 'f' then c.toNat - 'a'.toNat + 10
    else if 'A' ≤ c ∧ c ≤ 'F' then c.toNat - 'A'.toNat + 10
    else base
  if n < base then some n else none

/-- A number below a limit. `most` bounds how many digits there may be, and `padded` allows zeros in
    front. -/
def number (base : Nat) (most : Option Nat) (padded : Bool) (limit : Nat) (cs : List Char) :
    Option (Nat × List Char) :=
  let isDigit (c : Char) := (digit? base c).isSome
  let ds := cs.takeWhile isDigit
  let n := (ds.filterMap (digit? base)).foldl (fun n d => n * base + d) 0
  if ds.isEmpty || most.any (· < ds.length) then none
  else if !padded && ds.head? = some '0' && 1 < ds.length then none
  else if n < limit then some (n, cs.dropWhile isDigit)
  else none

/-- What is behind a character. -/
def after (c : Char) : List Char → Option (List Char)
  | d :: r => if c = d then some r else none
  | [] => none

/-- A decimal byte. -/
def byte (cs : List Char) : Option (UInt8 × List Char) := do
  let (n, cs) ← number 10 (some 3) false 256 cs
  return (n.toUInt8, cs)

/-- Four decimal bytes with points between them. -/
def bytes (cs : List Char) : Option (List UInt8 × List Char) := do
  let (a, cs) ← byte cs
  let (b, cs) ← byte (← after '.' cs)
  let (c, cs) ← byte (← after '.' cs)
  let (d, cs) ← byte (← after '.' cs)
  return ([a, b, c, d], cs)

/-- The two groups that four bytes make. -/
def paired : List UInt8 → List UInt16
  | a :: b :: r => (a.toNat * 256 + b.toNat).toUInt16 :: paired r
  | _ => []

/-- Up to so many groups with colons between them, and whether the last two were written as bytes. A
    colon with no group behind it is left where it is. -/
def groups : (limit : Nat) → (first : Bool) → List Char → List UInt16 × Bool × List Char
  | 0, _, cs => ([], false, cs)
  | n + 1, first, cs =>
    let start := if first then some cs else after ':' cs
    match if n = 0 then none else start.bind bytes with
    | some (bs, cs) => (paired bs, true, cs)
    | none =>
      match start.bind (number 16 (some 4) true 65536) with
      | none => ([], false, cs)
      | some (g, cs) =>
        let (gs, decimal, cs) := groups n false cs
        (g.toUInt16 :: gs, decimal, cs)

/-- Eight groups, a run of zeros among them perhaps left out. -/
def sixGroups (cs : List Char) : Option (List UInt16 × List Char) :=
  let (head, decimal, cs) := groups 8 true cs
  if head.length = 8 then some (head, cs)
  else if decimal then none
  else do
    let cs ← after ':' cs
    let cs ← after ':' cs
    let (tail, _, cs) := groups (7 - head.length) true cs
    return (head ++ List.replicate (8 - head.length - tail.length) 0 ++ tail, cs)

/-- The rest behind the scope of an address, if a scope is written. -/
def afterScope (cs : List Char) : List Char :=
  match (after '%' cs).bind (number 10 none true 4294967296) with
  | some (_, cs) => cs
  | none => cs

/-- Whether a text is a colon and a port. -/
def isPort (cs : List Char) : Bool :=
  match (after ':' cs).bind (number 10 none true 65536) with
  | some (_, []) => true
  | _ => false

/-- The address in the written form of a peer. -/
def ofPeer? (s : String) : Option Address :=
  match bytes s.toList with
  | some (bs, cs) => if isPort cs then some (four bs) else none
  | none => do
    let (gs, cs) ← sixGroups (← after '[' s.toList)
    let cs ← after ']' (afterScope cs)
    if isPort cs then some (six gs) else none

/-! ## Writing -/

/-- The written form of four bytes. -/
def bytesText (bs : List UInt8) : String := ".".intercalate (bs.map fun b => toString b.toNat)

/-- The written form of groups. -/
def groupsText (gs : List UInt16) : String :=
  ":".intercalate (gs.map fun g => String.ofList (Nat.toDigits 16 g.toNat))

/-- Where the first of the longest runs of zeros begins and how long it is; `index` is that of the
    first group, and `run` and `best` are what was found in front of it. -/
def zeroRun (index : Nat) (run best : Nat × Nat) : List UInt16 → Nat × Nat
  | [] => best
  | g :: gs =>
    if g = 0 then
      let run := if run.2 = 0 then (index, 1) else (run.1, run.2 + 1)
      zeroRun (index + 1) run (if best.2 < run.2 then run else best) gs
    else zeroRun (index + 1) (0, 0) best gs

/-- The written form: the longest run of two or more zero groups, the first of its length, is left
    out, and an address of four bytes that is mapped into eight groups keeps its decimal form. -/
def text : Address → String
  | four bs => bytesText bs
  | six gs =>
    match gs with
    | [0, 0, 0, 0, 0, 0xffff, g, h] =>
      "::ffff:" ++ bytesText ([g.toNat / 256, g.toNat % 256, h.toNat / 256, h.toNat % 256].map
        Nat.toUInt8)
    | gs =>
      let (start, length) := zeroRun 0 (0, 0) (0, 0) gs
      if 1 < length then
        groupsText (gs.take start) ++ "::" ++ groupsText (gs.drop (start + length))
      else groupsText gs

end Address

end Gatehouse.Http
