import Gatehouse.Proofs.Json.Number

/-!
# Numbers end where their bytes do

The reverse of reading a number before whatever stops it: a number that is read before something
no number continues with was read from its own bytes, and would have been read from them alone. A
float is written in such bytes only, so what is read where one was written is what it says alone, or
it leaves some of them.

## Key results

- `readsWithin_numberBehindSign`: a number is read from its own bytes, whatever stops it
- `value_of_numberBytes`: the same for a value that is written in bytes of numbers
- `scalar_float`: floats are written in bytes of numbers
-/

namespace Gatehouse.Json

open Text (bytes)

/-! ### The bytes of numbers -/

/-- Whether a byte may belong to a number. -/
def isNumberByte (b : UInt8) : Bool :=
  isDigitByte b || [byte '.', byte 'e', byte 'E', byte '+', byte '-'].contains b

/-- Whether bytes begin with one that may belong to a number. -/
def NumberAhead (s : Bytes) : Prop := ∃ b ∈ s.head?, isNumberByte b = true

/-- A byte of a number is neither a blank nor one of the others that have a meaning. -/
private theorem numberByte_spec : ∀ n < 256, isNumberByte (UInt8.ofNat n) = true →
    isBlankByte (UInt8.ofNat n) = false ∧ UInt8.ofNat n ∉ [byte 'n', byte 't', byte 'f', byte '"',
      byte '[', byte ']', byte '{', byte '}', byte ','] := by
  decide +kernel

/-- A number neither begins with a blank nor with a byte that something else begins or ends with. -/
theorem isBlankByte_of_isNumberByte {b : UInt8} (h : isNumberByte b = true) :
    isBlankByte b = false ∧ b ∉ [byte 'n', byte 't', byte 'f', byte '"', byte '[', byte ']',
      byte '{', byte '}', byte ','] := by
  have hb := numberByte_spec b.toNat (UInt8.toNat_lt b)
  rw [UInt8.ofNat_toNat] at hb
  exact hb h

/-- A number ends where no byte of a number is ahead. -/
theorem stopsNumber_of_not_numberAhead {s : Bytes} (h : ¬NumberAhead s) : StopsNumber s := by
  intro b hb
  have hno : isNumberByte b = false := Bool.eq_false_iff.2 fun hyes => h ⟨b, hb, hyes⟩
  simp [isNumberByte] at hno
  exact ⟨hno.1, hno.2.1, hno.2.2.1, hno.2.2.2.1⟩

/-- Whether what a parser reads before some bytes is read from the bytes in front of these. -/
def ReadsWithin {α : Type} (rest : Bytes) (p : Parser α) : Prop :=
  ∀ s a t, p (s ++ rest) = .ok (a, t) → ∃ s', s' <:+ s ∧ t = s' ++ rest ∧ p s = .ok (a, s')

section Within

variable {α β : Type} {rest : Bytes}

/-- What is made of the result does not look at where it ends. -/
theorem ReadsWithin.map {p : Parser α} (h : ReadsWithin rest p) (f : α → β) :
    ReadsWithin rest fun s => (p s).map (Prod.map f id) := by
  intro s b t hs
  cases hp : p (s ++ rest) with
  | error e => simp only [hp, Except.map, reduceCtorEq] at hs
  | ok r =>
    obtain ⟨a, t'⟩ := r
    simp only [hp, Except.map, Prod.map_apply, id_eq, Except.ok.injEq, Prod.mk.injEq] at hs
    obtain ⟨rfl, rfl⟩ := hs
    obtain ⟨s', hsuffix, ht, hs'⟩ := h s a t' hp
    exact ⟨s', hsuffix, ht, by simp only [hs', Except.map, Prod.map_apply, id_eq]⟩

/-- The digits of a whole part end before what is no part of a number. -/
theorem readsWithin_wholeDigits (h : ¬NumberAhead rest) : ReadsWithin rest wholeDigits := by
  intro s ds t hs
  have hsuffix : (spanDigitBytes s).2 <:+ s := List.dropWhile_suffix _
  simp only [wholeDigits] at hs ⊢
  rw [spanDigitBytes_append (stopsNumber_of_not_numberAhead h)] at hs
  generalize spanDigitBytes s = span at hs hsuffix
  obtain ⟨digits, s'⟩ := span
  rcases digits with _ | ⟨_ | n, _ | ⟨d, digits⟩⟩
  · cases s' with
    | nil => cases rest <;> cases hs
    | cons => cases hs
  -- A zero is read alone, and nothing is read of a zero in front.
  · cases hs
    exact ⟨s', hsuffix, rfl, rfl⟩
  · cases hs
  · cases hs
    exact ⟨s', hsuffix, rfl, rfl⟩
  · cases hs
    exact ⟨s', hsuffix, rfl, rfl⟩

/-- The digits of a fraction end before what is no part of a number. -/
theorem readsWithin_fractionDigits (h : ¬NumberAhead rest) :
    ReadsWithin rest fractionDigits := by
  intro s ds t hs
  have hsuffix : (spanDigitBytes s).2 <:+ s := List.dropWhile_suffix _
  simp only [fractionDigits] at hs ⊢
  rw [spanDigitBytes_append (stopsNumber_of_not_numberAhead h)] at hs
  generalize spanDigitBytes s = span at hs hsuffix
  obtain ⟨digits, s'⟩ := span
  cases digits with
  | nil =>
    cases s' with
    | nil => cases rest <;> cases hs
    | cons => cases hs
  | cons d digits =>
    cases hs
    exact ⟨s', hsuffix, rfl, rfl⟩

/-- A fraction, if there is one, ends before what is no part of a number. -/
theorem readsWithin_fraction? (h : ¬NumberAhead rest) : ReadsWithin rest fraction? := by
  intro s ds t hs
  cases s with
  | nil =>
    refine ⟨[], List.suffix_refl _, ?_⟩
    -- Nothing was left, so the bytes behind decide: they do not begin with a point.
    cases rest with
    | nil =>
      cases hs
      exact ⟨rfl, rfl⟩
    | cons b rest =>
      have hb : b ≠ byte '.' := (stopsNumber_of_not_numberAhead h b rfl).2.1
      simp only [List.nil_append, fraction?, if_neg hb] at hs
      cases hs
      exact ⟨rfl, rfl⟩
  | cons b s =>
    simp only [List.cons_append, fraction?] at hs ⊢
    split at hs
    · next hb =>
      obtain ⟨s', hsuffix, ht, hs'⟩ := (readsWithin_fractionDigits h).map some s ds t hs
      rw [if_pos hb]
      exact ⟨s', hsuffix.trans (List.suffix_cons b s), ht, hs'⟩
    · next hb =>
      cases hs
      rw [if_neg hb]
      exact ⟨b :: s, List.suffix_refl _, rfl, rfl⟩

/-- No power is read where no byte of a number is ahead. -/
theorem powerDigits_eq_error (h : ¬NumberAhead rest) (r : (Bool × List Nat) × Bytes) :
    powerDigits rest ≠ .ok r := by
  intro hr
  cases rest with
  | nil => cases hr
  | cons b rest =>
    have hb : isNumberByte b = false := Bool.eq_false_iff.2 fun hyes => h ⟨b, rfl, hyes⟩
    simp [isNumberByte] at hb
    obtain ⟨hdigit, -, -, -, hplus, hminus⟩ := hb
    simp only [powerDigits, if_neg hplus, if_neg hminus, fractionDigits, spanDigitBytes] at hr
    rw [List.takeWhile_cons_of_neg (by simp [hdigit]),
      List.dropWhile_cons_of_neg (by simp [hdigit])] at hr
    cases hr

/-- The digits of a power end before what is no part of a number. -/
theorem readsWithin_powerDigits (h : ¬NumberAhead rest) : ReadsWithin rest powerDigits := by
  have hdigits (down : Bool) : ReadsWithin rest fun s =>
      fractionDigits s >>= fun r => return ((down, r.1), r.2) := by
    intro s p t hs
    obtain ⟨⟨ds, t'⟩, hds, hs⟩ := ok_of_bind hs
    obtain ⟨s', hsuffix, rfl, hs'⟩ := readsWithin_fractionDigits h s ds t' hds
    cases hs
    refine ⟨s', hsuffix, rfl, ?_⟩
    simp only [hs', bind, Except.bind]
    rfl
  intro s p t hs
  cases s with
  | nil => exact absurd hs (powerDigits_eq_error h (p, t))
  | cons b s =>
    simp only [List.cons_append, powerDigits] at hs ⊢
    -- The sign is one byte, which is there or not, and the digits are those of a fraction.
    by_cases hplus : b = byte '+'
    · simp only [if_pos hplus] at hs ⊢
      obtain ⟨s', hsuffix, hs'⟩ := hdigits false s p t hs
      exact ⟨s', hsuffix.trans (List.suffix_cons b s), hs'⟩
    · by_cases hminus : b = byte '-'
      · simp only [if_neg hplus, if_pos hminus] at hs ⊢
        obtain ⟨s', hsuffix, hs'⟩ := hdigits true s p t hs
        exact ⟨s', hsuffix.trans (List.suffix_cons b s), hs'⟩
      · simp only [if_neg hplus, if_neg hminus] at hs ⊢
        exact hdigits false (b :: s) p t hs

/-- A power, if there is one, ends before what is no part of a number. -/
theorem readsWithin_power? (h : ¬NumberAhead rest) : ReadsWithin rest power? := by
  intro s p t hs
  cases s with
  | nil =>
    refine ⟨[], List.suffix_refl _, ?_⟩
    -- Nothing was left, so the bytes behind decide: they do not begin a power.
    cases rest with
    | nil =>
      cases hs
      exact ⟨rfl, rfl⟩
    | cons b rest =>
      have hb := (stopsNumber_of_not_numberAhead h b rfl).2.2
      simp [power?, hb.1, hb.2] at hs
      obtain ⟨rfl, rfl⟩ := hs
      exact ⟨rfl, rfl⟩
  | cons b s =>
    simp only [List.cons_append, power?] at hs ⊢
    split at hs
    · next hb =>
      obtain ⟨s', hsuffix, ht, hs'⟩ := (readsWithin_powerDigits h).map some s p t hs
      rw [if_pos hb]
      exact ⟨s', hsuffix.trans (List.suffix_cons b s), ht, hs'⟩
    · next hb =>
      cases hs
      rw [if_neg hb]
      exact ⟨b :: s, List.suffix_refl _, rfl, rfl⟩

/-- A number is read from its own bytes, whatever stops it. -/
theorem readsWithin_numberBehindSign (h : ¬NumberAhead rest) (negative : Bool) :
    ReadsWithin rest (numberBehindSign negative) := by
  intro s v t hs
  obtain ⟨⟨whole, t₁⟩, hw, hs⟩ := ok_of_bind hs
  obtain ⟨s₁, hsuffix₁, rfl, hwhole⟩ := readsWithin_wholeDigits h s whole t₁ hw
  obtain ⟨⟨fraction, t₂⟩, hf, hs⟩ := ok_of_bind hs
  obtain ⟨s₂, hsuffix₂, rfl, hfraction⟩ := readsWithin_fraction? h s₁ fraction t₂ hf
  obtain ⟨⟨power, t₃⟩, hp, hs⟩ := ok_of_bind hs
  obtain ⟨s₃, hsuffix₃, rfl, hpower⟩ := readsWithin_power? h s₂ power t₃ hp
  -- Each part ends inside the bytes in front, so the number does.
  refine ⟨s₃, hsuffix₃.trans (hsuffix₂.trans hsuffix₁), ?_⟩
  simp only [numberBehindSign, hwhole, hfraction, hpower, bind, Except.bind]
  cases hv : NumberParts.value? ⟨negative, whole, fraction, power⟩ with
  | none =>
    simp only [hv] at hs
    cases hs
  | some w =>
    simp only [hv] at hs ⊢
    cases hs
    exact ⟨rfl, rfl⟩

/-- Bytes of a number are read as a number from themselves. -/
theorem value_of_numberBytes {depth : Nat} {s t : Bytes} {w : Value}
    (hs : ∀ b ∈ s, isNumberByte b = true) (hne : s ≠ []) (hrest : ¬NumberAhead rest)
    (h : value depth (s ++ rest) = .ok (w, t)) :
    ∃ s', s' <:+ s ∧ t = s' ++ rest ∧ value 0 s = .ok (w, s') := by
  obtain ⟨b, s, rfl⟩ := List.exists_cons_of_ne_nil hne
  by_cases hminus : b = byte '-'
  · subst hminus
    rw [List.cons_append, value_minus] at h
    obtain ⟨s', hsuffix, ht, hread⟩ := readsWithin_numberBehindSign hrest true s w t h
    exact ⟨s', hsuffix.trans (List.suffix_cons _ s), ht, (value_minus 0 s).trans hread⟩
  by_cases hdigit : isDigitByte b = true
  · rw [List.cons_append, value_of_digit depth hdigit] at h
    obtain ⟨s', hsuffix, ht, hread⟩ := readsWithin_numberBehindSign hrest false (b :: s) w t h
    exact ⟨s', hsuffix, ht, (value_of_digit 0 hdigit s).trans hread⟩
  -- What else may belong to a number begins nothing.
  obtain ⟨hblank, hbegins⟩ := isBlankByte_of_isNumberByte (hs b List.mem_cons_self)
  simp only [List.mem_cons, List.not_mem_nil, or_false, not_or] at hbegins
  rw [List.cons_append, value, skipBlanks_cons hblank] at h
  cases depth <;> simp [hbegins, hminus, hdigit] at h

end Within

/-! ### How floats are written -/

/-- Whether a character may belong to a number. -/
def isNumberChar (c : Char) : Bool := c.toNat < 0x80 && isNumberByte (byte c)

/-- Characters of a number have bytes of a number. -/
theorem isNumberByte_of_mem_bytes {cs : List Char} (h : ∀ c ∈ cs, isNumberChar c = true) :
    ∀ b ∈ bytes cs, isNumberByte b = true := by
  intro b hb
  obtain ⟨c, hc, hb⟩ := List.mem_flatMap.1 hb
  have hc := h c hc
  simp only [isNumberChar, Bool.and_eq_true, decide_eq_true_eq] at hc
  obtain ⟨hlt, hnumber⟩ := hc
  rw [Text.utf8EncodeChar_of_lt hlt, List.mem_singleton] at hb
  rwa [hb]

/-- A digit is a character of a number. -/
private theorem isNumberChar_digitChar : ∀ d < 10, isNumberChar d.digitChar = true := by decide

/-- The digits of a natural number are characters of a number. -/
theorem isNumberChar_of_toDigits {n : Nat} : ∀ c ∈ Nat.toDigits 10 n, isNumberChar c = true := by
  intro c hc
  rw [toDigits_eq] at hc
  obtain ⟨d, hd, rfl⟩ := List.mem_map.1 hc
  exact isNumberChar_digitChar d (lt_of_mem_digits hd)

/-- Whether a text has no other characters than those of numbers. -/
def isNumeral (s : String) : Bool := s.toList.all isNumberChar

/-- Two numerals behind one another have only characters of numbers. -/
theorem isNumeral_append {s t : String} (hs : isNumeral s = true) (ht : isNumeral t = true) :
    isNumeral (s ++ t) = true := by
  rw [isNumeral] at hs ht
  rw [isNumeral, String.toList_append, List.all_append, hs, ht, Bool.and_self]

/-- A text of such characters is a numeral. -/
theorem isNumeral_ofList {cs : List Char} (h : ∀ c ∈ cs, isNumberChar c = true) :
    isNumeral (String.ofList cs) = true := by
  rw [isNumeral, String.toList_ofList]
  exact List.all_eq_true.2 h

/-- A float written in full is a numeral. -/
theorem isNumeral_positional (d : Decimal.Digits) : isNumeral d.positional = true := by
  have hzero {n : Nat} {c : Char} (hc : c ∈ List.replicate n '0') : isNumberChar c = true := by
    rw [List.eq_of_mem_replicate hc]
    decide
  rw [Decimal.Digits.positional]
  dsimp only
  split
  · refine isNumeral_append (isNumeral_ofList fun c hc => ?_) (by decide)
    exact (List.mem_append.1 hc).elim (isNumberChar_of_toDigits c) hzero
  · have hpadded {n : Nat} : ∀ c ∈ List.replicate n '0' ++ Nat.toDigits 10 d.digits,
        isNumberChar c = true :=
      fun c hc => (List.mem_append.1 hc).elim hzero (isNumberChar_of_toDigits c)
    refine isNumeral_append (isNumeral_append ?_ (by decide)) ?_
    · exact isNumeral_ofList fun c hc => hpadded c (List.mem_of_mem_take hc)
    · exact isNumeral_ofList fun c hc => hpadded c (List.mem_of_mem_drop hc)

/-- A float written with a power of ten is a numeral. -/
theorem isNumeral_scientific (d : Decimal.Digits) : isNumeral d.scientific = true := by
  have hdigits := @isNumberChar_of_toDigits d.digits
  rw [Decimal.Digits.scientific]
  refine isNumeral_append (isNumeral_append (isNumeral_append (isNumeral_append ?_ ?_) ?_) ?_) ?_
  · exact isNumeral_ofList fun c hc => hdigits c (List.mem_of_mem_take hc)
  · split
    · decide
    · refine isNumeral_append (by decide) (isNumeral_ofList fun c hc => ?_)
      exact hdigits c (List.mem_of_mem_drop hc)
  · decide
  · split <;> decide
  · rw [isNumeral, Nat.toString_eq_repr, Nat.toList_repr]
    exact List.all_eq_true.2 isNumberChar_of_toDigits

/-- The text of a decimal is not empty, and has no other characters than those of numbers. -/
theorem isNumeral_written (d : Decimal.Digits) :
    isNumeral d.written = true ∧ d.written.toList ≠ [] := by
  rw [Decimal.Digits.written]
  split
  · refine ⟨isNumeral_positional d, ?_⟩
    rw [Decimal.Digits.positional]
    dsimp only
    split <;> simp
  · refine ⟨isNumeral_scientific d, ?_⟩
    rw [Decimal.Digits.scientific]
    simp

/-- A float is written in the characters of numbers, or is none that a document can hold. -/
theorem scalar_float (x : Float) :
    (∀ c ∈ scalar (.float x), isNumberChar c = true) ∧ scalar (.float x) ≠ [] ∨
      scalar (.float x) = "null".toList ∨ scalar (.float x) = "NaN".toList ∨
        scalar (.float x) = "-inf".toList ∨ scalar (.float x) = "inf".toList := by
  rw [scalar]
  split
  · rw [Decimal.written]
    split
    · right; right
      split
      · exact .inl rfl
      · split
        · exact .inr (.inl rfl)
        · exact .inr (.inr rfl)
    · next b _ =>
      -- A finite float is written with digits, and in front of them its sign.
      have hsign : isNumeral (if b.negative then "-" else "") = true := by split <;> decide
      left
      dsimp only
      cases Decimal.shortest? b with
      | none => exact ⟨List.all_eq_true.1 (isNumeral_append hsign (by decide)), by simp⟩
      | some d =>
        obtain ⟨hnumeral, hne⟩ := isNumeral_written d
        refine ⟨List.all_eq_true.1 (isNumeral_append hsign hnumeral), ?_⟩
        rw [String.toList_append]
        exact List.append_ne_nil_of_right_ne_nil _ hne
  · exact .inr (.inl rfl)

end Gatehouse.Json
