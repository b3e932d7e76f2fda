import Gatehouse.Tls.Base64

/-!
# Armoured text

Binary contents travel in text as sections: a line `-----BEGIN LABEL-----`, lines of base64, and a
line `-----END LABEL-----`. Lines outside sections mean nothing, and so do sections under a label
that is not known. A section that has no end, whose first line does not end in five dashes, or whose
base64 cannot be decoded is malformed, and does not keep later ones from being read. A line that
begins a section inside another gives it a new label and keeps the lines there are.

* `sections`  the sections of a text, none for a malformed one
-/

namespace Gatehouse.Tls.Pem

/-- What the contents of a section are. -/
inductive Label
  | certificate
  | publicKey
  /-- A private key of the RSA kind, without a word on its kind. -/
  | rsaPrivateKey
  /-- A private key with the kind it is of. -/
  | privateKey
  /-- A private key on a curve, without a word on its kind. -/
  | curvePrivateKey
  | revocations
  | certificateRequest
  | clientHello
deriving DecidableEq

/-- The wording of each label. -/
def Label.all : List (String × Label) :=
  [("CERTIFICATE", .certificate), ("PUBLIC KEY", .publicKey), ("RSA PRIVATE KEY", .rsaPrivateKey),
    ("PRIVATE KEY", .privateKey), ("EC PRIVATE KEY", .curvePrivateKey), ("X509 CRL", .revocations),
    ("CERTIFICATE REQUEST", .certificateRequest), ("ECHCONFIG", .clientHello)]

/-- Whether the contents are a private key. -/
def Label.isPrivateKey : Label → Bool
  | rsaPrivateKey => true
  | privateKey => true
  | curvePrivateKey => true
  | _ => false

/-- The contents of a section, under its label. -/
structure Section where
  label : Label
  body : List UInt8
deriving DecidableEq

/-! ## Lines -/

/-- The lines of a text, each of which ends at a line feed or a carriage return. -/
def lines (text : List UInt8) : List (List UInt8) :=
  let rec go (line : List UInt8) : List UInt8 → List (List UInt8)
    | [] => [line.reverse]
    | b :: r => if b = 10 || b = 13 then line.reverse :: go [] r else go (b :: line) r
  go [] text

/-- The bytes of an ASCII text. -/
def ascii (s : String) : List UInt8 := s.toList.map fun c => c.toNat.toUInt8

/-- What follows an ASCII text at the beginning of a line. -/
def after? (beginning : String) (line : List UInt8) : Option (List UInt8) :=
  if (ascii beginning).isPrefixOf line then some (line.drop (ascii beginning).length) else none

/-- The dash. -/
def dash : UInt8 := 45

/-- The label in the rest of a line that begins a section: what stands in front of exactly five
    dashes at its end. Blanks between the dashes and behind them do not count. -/
def label? (rest : List UInt8) : Option (List UInt8) :=
  let ending := (rest.reverse.takeWhile fun b => b = dash || b = 32).reverse.dropWhile (· ≠ dash)
  if ending.count dash = 5 then some (rest.take (rest.length - ending.length)) else none

/-! ## Sections -/

/-- The section of a label and lines, if the label is known; none again if the lines cannot be
    decoded. -/
def section? (label : List UInt8) (text : List (List UInt8)) : Option (Option Section) :=
  (Label.all.find? fun l => ascii l.1 = label).map fun l =>
    (Base64.decode? text.flatten).map (⟨l.2, ·⟩)

/-- The sections from some line on; `inside` is the label of the section that was begun, and `text`
    holds its lines so far, the last one first. -/
def sectionsFrom (inside : Option (List UInt8)) (text : List (List UInt8)) :
    List (List UInt8) → List (Option Section)
  | [] => if inside.isSome then [none] else []
  | line :: more =>
    match after? "-----BEGIN " line with
    | some rest =>
      match label? rest with
      | some label => sectionsFrom (some label) text more
      | none => none :: sectionsFrom none [] more
    | none =>
      match inside with
      | none => sectionsFrom none text more
      | some label =>
        if (ascii "-----END " ++ label ++ ascii "-----").isPrefixOf line then
          (section? label text.reverse).toList ++ sectionsFrom none [] more
        else sectionsFrom inside (line :: text) more

/-- The sections of a text, none for a malformed one. -/
def sections (text : List UInt8) : List (Option Section) := sectionsFrom none [] (lines text)

end Gatehouse.Tls.Pem
