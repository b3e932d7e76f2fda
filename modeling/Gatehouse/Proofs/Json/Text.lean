import Gatehouse.Json.Printer
import Gatehouse.Json.Reader
import Gatehouse.Proofs.Text.Bytes

/-!
# Texts are read back

A text in quotes is read back as the text, whatever comes behind the closing quote. A character is
written as an escape or as its own bytes, and either is read as its own bytes, character by
character.

## Key results

- `textBytes_escapeChar`: what one written character adds to what is read
- `textBehindQuote_behindQuote`: a quoted text is read back
-/

namespace Gatehouse.Json

open Text (bytes)

/-- A byte that stands for itself inside a text. -/
def IsPlainByte (b : UInt8) : Prop := 0x20 ≤ b ∧ b ≠ 0x22 ∧ b ≠ 0x5C

/-- A plain byte is read as itself. -/
theorem textBytes_cons_of_plain {b : UInt8} (h : IsPlainByte b) (s : Bytes) :
    textBytes (b :: s) = (textBytes s).map fun r => (b :: r.1, r.2) := by
  obtain ⟨hlow, hquote, hslash⟩ := h
  have hlow : ¬b < 0x20 := UInt8.not_lt.2 hlow
  rw [textBytes]
  · rw [if_neg hlow]
  all_goals simp_all

/-- Plain bytes are read as themselves. -/
theorem textBytes_append_of_plain {bs : Bytes} (h : ∀ b ∈ bs, IsPlainByte b) (s : Bytes) :
    textBytes (bs ++ s) = (textBytes s).map fun r => (bs ++ r.1, r.2) := by
  induction bs with
  | nil =>
    simp only [List.nil_append]
    cases textBytes s <;> rfl
  | cons b bs ih =>
    rw [List.cons_append, textBytes_cons_of_plain (h b List.mem_cons_self),
      ih fun b' hb' => h b' (List.mem_cons_of_mem b hb')]
    cases textBytes s <;> rfl

/-- The bytes of a character that needs no escape stand for themselves. -/
theorem isPlainByte_of_mem {c : Char} (hlow : 0x20 ≤ c.toNat) (hquote : c ≠ '"')
    (hslash : c ≠ '\\') : ∀ b ∈ String.utf8EncodeChar c, IsPlainByte b := by
  -- A character below 128 is one byte, and the bytes of any other are above.
  by_cases hascii : c.toNat < 0x80
  · rw [Text.utf8EncodeChar_of_lt hascii]
    have hne : ∀ {d : Char}, c ≠ d → c.toNat ≠ d.toNat :=
      fun h hn => h (Char.toNat_inj.1 hn)
    have hto : (UInt8.ofNat c.toNat).toNat = c.toNat :=
      UInt8.toNat_ofNat_of_lt' (Nat.lt_trans hascii (by decide))
    intro b hb
    rw [List.mem_singleton.1 hb]
    refine ⟨?_, ?_, ?_⟩
    · rw [UInt8.le_iff_toNat_le, hto]
      exact hlow
    · rw [Ne, ← UInt8.toNat_inj, hto]
      exact hne hquote
    · rw [Ne, ← UInt8.toNat_inj, hto]
      exact hne hslash
  · intro b hb
    have hb : 0x80 ≤ b := Text.le_of_mem_utf8EncodeChar (Nat.not_lt.1 hascii) b hb
    refine ⟨UInt8.le_trans (by decide) hb, ?_, ?_⟩
    · rintro rfl
      exact absurd hb (by decide)
    · rintro rfl
      exact absurd hb (by decide)

/-- What a written character is read as: itself, before what comes behind it. -/
def Adds (c : Char) (written : Bytes) : Prop :=
  ∀ s, textBytes (written ++ s) = (textBytes s).map fun r => (String.utf8EncodeChar c ++ r.1, r.2)

/-- A short escape is read as the character that it stands for. -/
theorem adds_short {b : UInt8} {c : Char} (h : shortEscape? b = some (UInt8.ofNat c.toNat))
    (hb : b ≠ 0x75) (hc : c.toNat < 0x80) : Adds c [0x5C, b] := by
  intro s
  simp only [List.cons_append, List.nil_append, Text.utf8EncodeChar_of_lt hc]
  rw [textBytes]
  · simp only [h]
  all_goals simp_all

/-- Two hexadecimal digits behind two zeros are read as the number that they were written for. -/
private theorem hexByte_read : ∀ n < 0x20,
    bytes (hexByte n) = [byte (n / 16 % 16).digitChar, byte (n % 16).digitChar] ∧
      hex4? 0x30 0x30 (byte (n / 16 % 16).digitChar) (byte (n % 16).digitChar) = some n := by
  decide

/-- A control character is read from its four digits. -/
theorem adds_hex {c : Char} (h : c.toNat < 0x20) :
    Adds c (bytes (['\\', 'u', '0', '0'] ++ hexByte c.toNat)) := by
  intro s
  obtain ⟨hbytes, hread⟩ := hexByte_read c.toNat h
  have hfront : bytes ['\\', 'u', '0', '0'] = [0x5C, 0x75, 0x30, 0x30] := rfl
  rw [Text.bytes_append, hbytes, hfront]
  simp only [List.cons_append, List.nil_append]
  rw [textBytes, hread]
  have hlow : (0xDC00 ≤ c.toNat && c.toNat ≤ 0xDFFF) = false := by simp; omega
  have hhigh : (0xD800 ≤ c.toNat && c.toNat ≤ 0xDBFF) = false := by simp; omega
  simp only [hlow, hhigh, Bool.false_eq_true, if_false, utf8, Char.ofNat_toNat]

/-- Every character is written in a form that is read as itself. -/
theorem textBytes_escapeChar (c : Char) : Adds c (bytes (escapeChar c)) := by
  simp only [escapeChar]
  split
  · next h => subst h; exact adds_short (b := 0x22) (by decide) (by decide) (by decide)
  split
  · next h => subst h; exact adds_short (b := 0x5C) (by decide) (by decide) (by decide)
  split
  · next h => subst h; exact adds_short (b := 0x6E) (by decide) (by decide) (by decide)
  split
  · next h => subst h; exact adds_short (b := 0x72) (by decide) (by decide) (by decide)
  split
  · next h => subst h; exact adds_short (b := 0x74) (by decide) (by decide) (by decide)
  split
  · next h => subst h; exact adds_short (b := 0x62) (by decide) (by decide) (by decide)
  split
  · next h => subst h; exact adds_short (b := 0x66) (by decide) (by decide) (by decide)
  split
  · next h => exact adds_hex h
  · next hquote hslash _ _ _ _ _ hlow =>
    intro s
    rw [Text.bytes_cons, Text.bytes_nil, List.append_nil]
    exact textBytes_append_of_plain (isPlainByte_of_mem (Nat.not_lt.1 hlow) hquote hslash) s

/-- The bytes of a quoted text behind its opening quote. -/
def behindQuote (t : String) : Bytes := bytes (t.toList.flatMap escapeChar) ++ [byte '"']

/-- A quoted text begins with a quote. -/
theorem bytes_quoted (t : String) : bytes (quoted t) = byte '"' :: behindQuote t := by
  rw [quoted, List.cons_append, Text.bytes_cons, Text.bytes_append]
  rfl

/-- What is written of characters up to the closing quote is read as their bytes. -/
theorem textBytes_written (cs : List Char) (rest : Bytes) :
    textBytes (bytes (cs.flatMap escapeChar) ++ 0x22 :: rest) = .ok (bytes cs, rest) := by
  induction cs with
  | nil => simp [textBytes]
  | cons c cs ih =>
    rw [List.flatMap_cons, Text.bytes_append, List.append_assoc, textBytes_escapeChar, ih]
    rfl

/-- A quoted text is read back. -/
theorem textBehindQuote_behindQuote (t : String) (rest : Bytes) :
    textBehindQuote (behindQuote t ++ rest) = .ok (t, rest) := by
  have hread : textBytes (behindQuote t ++ rest) = .ok (bytes t.toList, rest) := by
    rw [behindQuote, List.append_assoc]
    exact textBytes_written t.toList rest
  simp only [textBehindQuote, hread, bind, Except.bind, Text.fromUTF8?_bytes, String.ofList_toList]
  rfl

end Gatehouse.Json
