import Gatehouse.Guard.Plaintext

/-!
# What counts as encrypted

The guard against plaintext asks for the text of a field and lowers its letters. In terms of the
bytes that came: the first value of the field must spell `https`, its letters in either case.
Values behind the first do not count, and a value with a byte that is no text spells nothing.

## Key results

- `toList_ofBytesLossy_of_lt`: bytes below `0x80` are read one by one
- `cameEncrypted_iff`: the guard accepts exactly the requests whose first value spells `https`
-/

namespace Gatehouse

namespace Text

/-- Bytes below `0x80` are read one by one. -/
theorem lossyCharsFrom_of_lt (bytes : List UInt8) (h : ∀ b ∈ bytes, b < 0x80) :
    lossyCharsFrom bytes.length bytes = bytes.map fun b => Char.ofNat b.toNat := by
  induction bytes with
  | nil => rfl
  | cons b bytes ih =>
    rw [List.length_cons, lossyCharsFrom, if_pos (h b List.mem_cons_self), List.map_cons,
      ih fun b' hb' => h b' (List.mem_cons_of_mem b hb')]

/-- Bytes below `0x80` are read one by one as characters. -/
theorem toList_ofBytesLossy_of_lt {bytes : List UInt8} (h : ∀ b ∈ bytes, b < 0x80) :
    (ofBytesLossy bytes).toList = bytes.map fun b => Char.ofNat b.toNat := by
  rw [ofBytesLossy, String.toList_ofList, lossyCharsFrom_of_lt bytes h]

end Text

namespace Guard

open Http (Header Headers Request)

/-- A byte, and for an upper-case letter the lower-case one. -/
def lowerByte (b : UInt8) : UInt8 := if 0x41 ≤ b && b ≤ 0x5A then b + 0x20 else b

/-- Whether bytes spell a word of lower-case letters, in either case. -/
def Spells (word : String) (bytes : List UInt8) : Prop :=
  bytes.map lowerByte = word.toUTF8.toList

instance (word : String) (bytes : List UInt8) : Decidable (Spells word bytes) :=
  inferInstanceAs (Decidable (_ = _))

/-- Whether the first value of the field that a proxy sets spells `https`. -/
def SaysEncrypted (r : Request) : Prop :=
  ∃ v, (r.headers.values "x-forwarded-proto").head? = some v ∧ Spells "https" v

/-- Characters below 128 are lowered as bytes are. -/
private theorem toNat_toLower : ∀ n < 128,
    (Char.ofNat n).toLower.toNat = (lowerByte (UInt8.ofNat n)).toNat := by
  decide +kernel

/-- A byte that is a lower-case letter when lowered can be read. -/
private theorem isReadableByte_of_lowerByte : ∀ n < 256,
    0x61 ≤ (lowerByte (UInt8.ofNat n)).toNat → (lowerByte (UInt8.ofNat n)).toNat ≤ 0x7A →
      Http.isReadableByte (UInt8.ofNat n) = true := by
  decide +kernel

/-- Bytes that can be read are below 128. -/
private theorem lt_of_isReadableByte {b : UInt8} (h : Http.isReadableByte b = true) : b < 0x80 := by
  simp only [Http.isReadableByte, Bool.or_eq_true, beq_iff_eq, Bool.and_eq_true,
    decide_eq_true_eq] at h
  rcases h with rfl | ⟨-, h⟩
  · decide
  · exact UInt8.lt_trans h (by decide)

/-- A readable byte whose letter lowers to a letter of `https` was that letter in either case. -/
private theorem lowerByte_eq_iff (b : UInt8) {w : Char} (hw : w ∈ "https".toList) :
    (Http.isReadableByte b = true ∧ (Char.ofNat b.toNat).toLower = w) ↔
      lowerByte b = UInt8.ofNat w.toNat := by
  have hletters : ("https".toList.all fun w => 0x61 ≤ w.toNat && w.toNat ≤ 0x7A) = true := by
    decide +kernel
  have hletter := List.all_eq_true.1 hletters w hw
  rw [Bool.and_eq_true, decide_eq_true_eq, decide_eq_true_eq] at hletter
  obtain ⟨hlow, hhigh⟩ := hletter
  have hwn : (UInt8.ofNat w.toNat).toNat = w.toNat := UInt8.toNat_ofNat_of_lt'
    (Nat.lt_of_le_of_lt hhigh (by decide))
  have hlower (hb : Http.isReadableByte b = true) :
      (Char.ofNat b.toNat).toLower.toNat = (lowerByte b).toNat := by
    have h := toNat_toLower b.toNat (UInt8.lt_iff_toNat_lt.1 (lt_of_isReadableByte hb))
    rwa [UInt8.ofNat_toNat] at h
  constructor
  · rintro ⟨hb, rfl⟩
    apply UInt8.toNat_inj.1
    rw [hwn, hlower hb]
  · intro h
    -- Only a letter is lowered to a letter, so the byte is readable.
    have hb : Http.isReadableByte b = true := by
      have h' := isReadableByte_of_lowerByte b.toNat (UInt8.toNat_lt b)
      rw [UInt8.ofNat_toNat, h, hwn] at h'
      exact h' hlow hhigh
    refine ⟨hb, Char.toNat_inj.1 ?_⟩
    rw [hlower hb, h, hwn]

/-- A value that can be read spells the word in characters if and only if it does so in bytes. -/
private theorem map_lowerByte_eq_iff (v : List UInt8) (ws : List Char)
    (hws : ∀ w ∈ ws, w ∈ "https".toList) :
    (v.all Http.isReadableByte = true ∧ v.map (fun b => (Char.ofNat b.toNat).toLower) = ws) ↔
      v.map lowerByte = ws.map fun w => UInt8.ofNat w.toNat := by
  induction v generalizing ws with
  | nil => cases ws <;> simp
  | cons b v ih =>
    cases ws with
    | nil => simp
    | cons w ws =>
      have hb := lowerByte_eq_iff b (hws w List.mem_cons_self)
      have ih := ih ws fun w' hw' => hws w' (List.mem_cons_of_mem w hw')
      simp only [List.all_cons, Bool.and_eq_true, List.map_cons, List.cons.injEq, ← hb, ← ih]
      constructor
      · rintro ⟨⟨hb, hv⟩, hw, hws⟩
        exact ⟨⟨hb, hw⟩, hv, hws⟩
      · rintro ⟨⟨hb, hw⟩, hv, hws⟩
        exact ⟨⟨hb, hv⟩, hw, hws⟩

/-- A field whose text lowers to `https` is one whose bytes spell it. -/
theorem text?_lower_eq_iff (h : Header) :
    h.text?.map String.toLower = some "https" ↔ Spells "https" h.value := by
  have hbytes : "https".toUTF8.toList = "https".toList.map fun w => UInt8.ofNat w.toNat := by
    decide +kernel
  rw [Spells, hbytes, ← map_lowerByte_eq_iff h.value _ fun _ hw => hw, Header.text?]
  by_cases hall : h.value.all Http.isReadableByte = true
  · have hlt : ∀ b ∈ h.value, b < 0x80 := fun b hb =>
      lt_of_isReadableByte (List.all_eq_true.1 hall b hb)
    have hlower (t : String) : t.toLower.toList = t.toList.map Char.toLower := String.toList_map
    rw [if_pos hall, Option.map_some, Option.some.injEq, ← String.toList_inj, hlower,
      Text.toList_ofBytesLossy_of_lt hlt, List.map_map]
    simp only [hall, true_and]
    rfl
  · simp [hall]

/-- The first field of a name has the first of its values. -/
theorem first?_eq_some_iff (hs : Headers) (name : String) (v : List UInt8) :
    (∃ h, hs.first? name = some h ∧ h.value = v) ↔ (hs.values name).head? = some v := by
  rw [Headers.values, List.head?_map, List.head?_filter, Option.map_eq_some_iff]
  rfl

/-- The guard accepts exactly the requests whose first value spells `https`. -/
theorem cameEncrypted_iff (r : Request) : cameEncrypted r = true ↔ SaysEncrypted r := by
  rw [cameEncrypted, beq_iff_eq, Headers.text?, Option.map_bind, Option.bind_eq_some_iff]
  constructor
  · rintro ⟨h, hfirst, htext⟩
    exact ⟨h.value, (first?_eq_some_iff _ _ _).1 ⟨h, hfirst, rfl⟩, (text?_lower_eq_iff h).1 htext⟩
  · rintro ⟨v, hv, hspells⟩
    obtain ⟨h, hfirst, rfl⟩ := (first?_eq_some_iff _ _ _).2 hv
    exact ⟨h, hfirst, (text?_lower_eq_iff h).2 hspells⟩

end Guard

end Gatehouse
