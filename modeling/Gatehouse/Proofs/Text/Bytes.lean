/-!
# The bytes of a text

The UTF-8 form of a text is the forms of its characters, one after the other. It determines the
text, and it keeps the order: texts compare by their characters as their forms do byte by byte.

## Key results

- `toList_toUTF8`: the bytes of a text, character by character
- `fromUTF8?_bytes`: the bytes of a text are read back as the text
- `lt_iff_toUTF8_lt`: the order of texts is the order of their bytes
- `eq_of_pairwise_lt`: texts in strictly increasing order are listed in one way
-/

namespace Gatehouse.Text

/-- The UTF-8 form of characters. -/
def bytes (cs : List Char) : List UInt8 := cs.flatMap String.utf8EncodeChar

/-- No characters have no bytes. -/
@[simp] theorem bytes_nil : bytes [] = [] := rfl

/-- The bytes of the first character come first. -/
@[simp] theorem bytes_cons (c : Char) (cs : List Char) :
    bytes (c :: cs) = String.utf8EncodeChar c ++ bytes cs := List.flatMap_cons

/-- Texts behind one another have their bytes behind one another. -/
@[simp] theorem bytes_append (cs cs' : List Char) : bytes (cs ++ cs') = bytes cs ++ bytes cs' :=
  List.flatMap_append

/-- Every character has a byte. -/
theorem bytes_ne_nil {cs : List Char} (h : cs ≠ []) : bytes cs ≠ [] := by
  obtain ⟨c, cs, rfl⟩ := List.exists_cons_of_ne_nil h
  have hc : 0 < (String.utf8EncodeChar c).length := by
    rw [String.length_utf8EncodeChar]
    exact Char.utf8Size_pos c
  rw [bytes_cons]
  exact List.append_ne_nil_of_left_ne_nil (List.ne_nil_of_length_pos hc) _

/-- The library encodes a text character by character, too. -/
theorem utf8Encode_eq (cs : List Char) : cs.utf8Encode = ⟨(bytes cs).toArray⟩ := by
  rw [List.utf8Encode, bytes]
  exact ByteArray.ext (by rw [List.data_toByteArray])

/-- The loop puts the bytes from its index on behind those that it has. -/
private theorem toList_loop_eq (b : ByteArray) (i : Nat) (r : List UInt8) :
    ByteArray.toList.loop b i r = r.reverse ++ b.data.toList.drop i := by
  fun_induction ByteArray.toList.loop b i r with
  | case1 i r h ih =>
    have hlt : i < b.data.toList.length := by rwa [Array.length_toList]
    have hget : b.get! i = b.data.toList[i] := by
      rw [Array.getElem_toList]
      exact getElem!_pos b.data i h
    rw [ih, List.drop_eq_getElem_cons hlt, hget, List.reverse_cons, List.append_assoc,
      List.singleton_append]
  | case2 i r h =>
    have hle : b.data.toList.length ≤ i := by
      rw [Array.length_toList]
      exact Nat.le_of_not_lt h
    rw [List.drop_eq_nil_of_le hle, List.append_nil]

/-- A byte array is listed from its first byte to its last. -/
theorem toList_eq (b : ByteArray) : b.toList = b.data.toList := by
  rw [ByteArray.toList, toList_loop_eq]
  rfl

/-- The bytes of a text are those of its characters. -/
theorem toList_toUTF8 (s : String) : s.toUTF8.toList = bytes s.toList := by
  rw [toList_eq, String.toUTF8_eq_toByteArray, ← String.utf8Encode_toList, utf8Encode_eq]

/-- The bytes of a text are read back as the text. -/
theorem fromUTF8?_bytes (cs : List Char) :
    String.fromUTF8? ⟨(bytes cs).toArray⟩ = some (String.ofList cs) := by
  rw [← utf8Encode_eq, String.fromUTF8?, dif_pos ByteArray.isValidUTF8_utf8Encode,
    Option.some.injEq, ← String.toByteArray_inj, String.toByteArray_ofList]
  rfl

/-- A character of ASCII is one byte. -/
theorem utf8EncodeChar_of_lt {c : Char} (h : c.toNat < 0x80) :
    String.utf8EncodeChar c = [UInt8.ofNat c.toNat] := by
  have h' : c.val.toNat ≤ 0x7f := Nat.le_of_lt_succ h
  simp only [String.utf8EncodeChar, if_pos h']
  rfl

/-- Numbers from 128 to 255 keep their order as bytes. -/
private theorem le_ofNat {n : Nat} (h : 0x80 ≤ n) (hn : n < 256) : 0x80 ≤ UInt8.ofNat n := by
  rw [UInt8.le_iff_toNat_le, UInt8.toNat_ofNat_of_lt' hn]
  exact h

/-- Every byte of another character is above ASCII. -/
theorem le_of_mem_utf8EncodeChar {c : Char} (h : 0x80 ≤ c.toNat) :
    ∀ b ∈ String.utf8EncodeChar c, 0x80 ≤ b := by
  have h' : ¬c.val.toNat ≤ 0x7f := Nat.not_le.2 h
  have hgt : c.val.toNat < 0x110000 := by
    have := c.valid
    simp only [UInt32.isValidChar, Nat.isValidChar] at this
    omega
  simp only [String.utf8EncodeChar, if_neg h']
  split
  · simp only [List.mem_cons, List.not_mem_nil, or_false, forall_eq_or_imp, forall_eq]
    exact ⟨le_ofNat (by omega) (by omega), le_ofNat (by omega) (by omega)⟩
  · split <;> simp only [List.mem_cons, List.not_mem_nil, or_false, forall_eq_or_imp, forall_eq]
    · exact ⟨le_ofNat (by omega) (by omega), le_ofNat (by omega) (by omega),
        le_ofNat (by omega) (by omega)⟩
    · exact ⟨le_ofNat (by omega) (by omega), le_ofNat (by omega) (by omega),
        le_ofNat (by omega) (by omega), le_ofNat (by omega) (by omega)⟩

/-! ### Order -/

/-- Lists of bytes are compared by their first bytes, and by the others if these agree. -/
private theorem cons_lt_cons {n m : Nat} (hn : n < 256) (hm : m < 256) (hle : n ≤ m)
    {x y : List UInt8} (h : n = m → x < y) : UInt8.ofNat n :: x < UInt8.ofNat m :: y := by
  rw [List.cons_lt_cons_iff, UInt8.lt_iff_toNat_lt, ← UInt8.toNat_inj, UInt8.toNat_ofNat_of_lt' hn,
    UInt8.toNat_ofNat_of_lt' hm]
  rcases Nat.lt_or_eq_of_le hle with hlt | heq
  · exact .inl hlt
  · exact .inr ⟨heq, h heq⟩

/-- Of two characters the lesser one has the lesser form, whatever comes behind. -/
theorem utf8EncodeChar_append_lt {c d : Char} (h : c < d) (x y : List UInt8) :
    String.utf8EncodeChar c ++ x < String.utf8EncodeChar d ++ y := by
  have hlt : c.val.toNat < d.val.toNat := h
  have hd : d.val.toNat < 0x110000 := by
    have := d.valid
    simp only [UInt32.isValidChar, Nat.isValidChar] at this
    omega
  generalize hm : c.val.toNat = m at hlt
  generalize hn : d.val.toNat = n at hlt hd
  simp only [String.utf8EncodeChar, hm, hn]
  -- A shorter form has the lesser first byte; equally long ones differ first in some byte.
  split <;> split <;> (try split) <;> (try split) <;> (try split) <;> (try split) <;>
    (try omega) <;> simp only [List.cons_append, List.nil_append] <;>
    repeat first
      | omega
      | refine cons_lt_cons (by omega) (by omega) (by omega) fun _ => ?_

/-- Texts in the order of their characters are in the order of their bytes. -/
theorem bytes_lt_of_lt {cs ds : List Char} (h : cs < ds) : bytes cs < bytes ds := by
  induction cs generalizing ds with
  | nil =>
    cases ds with
    | nil => exact absurd h (List.lt_irrefl [])
    | cons d ds =>
      cases he : String.utf8EncodeChar d with
      | nil => exact absurd he String.utf8EncodeChar_ne_nil
      | cons b bs =>
        rw [bytes_cons, he]
        exact List.nil_lt_cons _ _
  | cons c cs ih =>
    cases ds with
    | nil => exact absurd h (List.not_lt_nil _)
    | cons d ds =>
      rw [bytes_cons, bytes_cons]
      -- The first characters decide, or they are alike and what follows decides.
      rcases List.cons_lt_cons_iff.1 h with hhead | ⟨rfl, htail⟩
      · exact utf8EncodeChar_append_lt hhead _ _
      · exact List.append_left_lt (ih htail)

/-- The order of texts is the order of their bytes. -/
theorem lt_iff_toUTF8_lt (s t : String) : s < t ↔ s.toUTF8.toList < t.toUTF8.toList := by
  rw [toList_toUTF8, toList_toUTF8]
  constructor
  · exact fun h => bytes_lt_of_lt h
  · intro h
    refine Decidable.byContradiction fun hnot => ?_
    by_cases hlt : t < s
    · exact List.lt_asymm h (bytes_lt_of_lt hlt)
    · have heq : s = t := String.le_antisymm (String.not_lt.1 hlt) (String.not_lt.1 hnot)
      subst heq
      exact List.lt_irrefl _ h

/-- Texts are ordered as their bytes are. -/
theorem le_iff_toUTF8_le (s t : String) : s ≤ t ↔ s.toUTF8.toList ≤ t.toUTF8.toList := by
  rw [← String.not_lt, lt_iff_toUTF8_lt, List.not_lt]

/-- Two lists of texts in strictly increasing order with the same members are one list. -/
theorem eq_of_pairwise_lt {ss ts : List String} (hs : ss.Pairwise (· < ·))
    (ht : ts.Pairwise (· < ·)) (h : ∀ s, s ∈ ss ↔ s ∈ ts) : ss = ts := by
  have hne : ∀ {a b : String}, a < b → a ≠ b := fun h heq => String.lt_irrefl _ (heq ▸ h)
  have hperm : ss.Perm ts := (List.perm_ext_iff_of_nodup (hs.imp hne) (ht.imp hne)).2 h
  refine hperm.eq_of_pairwise (fun a b _ _ hab hba => ?_) hs ht
  exact absurd (String.lt_trans hab hba) (String.lt_irrefl a)

end Gatehouse.Text
