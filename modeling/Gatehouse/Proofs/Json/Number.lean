import Gatehouse.Json.Printer
import Gatehouse.Json.Reader
import Gatehouse.Proofs.Text.Bytes

/-!
# Numbers are read back

Where a number ends is told by the byte behind it, so what is read of a number does not change when
something that cannot belong to it comes behind. An integer within its bounds is read back from its
digits. A float is read back if it is so when it stands alone; not every one is, because the
digits of a float are rounded twice on the way back.

## Key results

- `readsBefore_numberBehindSign`: a number is read the same whatever stops it
- `value_int`: an integer is read back
- `value_append_of_float`: a float that is read back alone is read back
-/

namespace Gatehouse.Json

open Text (bytes)

/-- A sequence of two succeeds if both do. -/
theorem ok_of_bind {ε α β : Type} {x : Except ε α} {f : α → Except ε β} {b : β}
    (h : x >>= f = .ok b) : ∃ a, x = .ok a ∧ f a = .ok b := by
  cases x with
  | error e => cases h
  | ok a => exact ⟨a, rfl, h⟩

/-! ### Blanks -/

/-- Nothing is skipped in front of a byte that is no blank. -/
theorem skipBlanks_cons {b : UInt8} (h : isBlankByte b = false) (s : Bytes) :
    skipBlanks (b :: s) = b :: s := by
  unfold skipBlanks
  rw [List.dropWhile_cons_of_neg (by simp [h])]

/-- Behind skipped blanks there are none. -/
theorem skipBlanks_skipBlanks (s : Bytes) : skipBlanks (skipBlanks s) = skipBlanks s := by
  induction s with
  | nil => rfl
  | cons b s ih =>
    simp only [skipBlanks] at ih ⊢
    by_cases hb : isBlankByte b = true
    · rw [List.dropWhile_cons_of_pos hb, ih]
    · rw [List.dropWhile_cons_of_neg hb, List.dropWhile_cons_of_neg hb]

/-- Blanks are skipped up to the same byte, whatever comes behind. -/
theorem skipBlanks_append {s : Bytes} {b : UInt8} {t : Bytes} (h : skipBlanks s = b :: t)
    (rest : Bytes) : skipBlanks (s ++ rest) = b :: t ++ rest := by
  unfold skipBlanks at h ⊢
  rw [List.dropWhile_append, h]
  rfl

/-- Blanks in front of a value are passed over. -/
theorem value_skipBlanks (depth : Nat) (s : Bytes) :
    value depth (skipBlanks s) = value depth s := by
  rw [value, value, skipBlanks_skipBlanks]

/-! ### Where a number ends -/

/-- What may come behind a number without being taken for a part of it. -/
def StopsNumber (s : Bytes) : Prop :=
  ∀ b ∈ s.head?, isDigitByte b = false ∧ b ≠ byte '.' ∧ b ≠ byte 'e' ∧ b ≠ byte 'E'

/-- Whether a parser reads the same when some bytes come behind. -/
def ReadsBefore {α : Type} (rest : Bytes) (p : Parser α) : Prop :=
  ∀ s a s', p s = .ok (a, s') → p (s ++ rest) = .ok (a, s' ++ rest)

section Stopped

variable {α β : Type} {rest : Bytes}

/-- What is made of the result does not look at the bytes behind. -/
theorem ReadsBefore.map {p : Parser α} (h : ReadsBefore rest p) (f : α → β) :
    ReadsBefore rest fun s => (p s).map (Prod.map f id) := by
  intro s b s' hs
  cases hp : p s with
  | error e => simp only [hp, Except.map, reduceCtorEq] at hs
  | ok r =>
    obtain ⟨a, t⟩ := r
    simp only [hp, Except.map, Prod.map_apply, id_eq, Except.ok.injEq, Prod.mk.injEq] at hs
    obtain ⟨rfl, rfl⟩ := hs
    simp only [h s a t hp, Except.map, Prod.map_apply, id_eq]

/-- Two parsers that do not mind what comes behind read so one after the other. -/
theorem ReadsBefore.bind {p : Parser α} {q : α → Parser β} (hp : ReadsBefore rest p)
    (hq : ∀ a, ReadsBefore rest (q a)) : ReadsBefore rest fun s => p s >>= fun r => q r.1 r.2 := by
  intro s b s' hs
  cases hr : p s with
  | error e => simp only [hr, Bind.bind, Except.bind, reduceCtorEq] at hs
  | ok r =>
    simp only [hr, Bind.bind, Except.bind] at hs
    simp only [hp s r.1 r.2 hr, Bind.bind, Except.bind]
    exact hq r.1 r.2 b s' hs

/-- Digits end where they did when what comes behind is no digit. -/
theorem spanDigitBytes_append (h : StopsNumber rest) (s : Bytes) :
    spanDigitBytes (s ++ rest) = ((spanDigitBytes s).1, (spanDigitBytes s).2 ++ rest) := by
  induction s with
  | nil =>
    cases rest with
    | nil => rfl
    | cons b rest =>
      have hb : isDigitByte b = false := (h b rfl).1
      simp [spanDigitBytes, hb]
  | cons b s ih =>
    simp only [spanDigitBytes, Prod.mk.injEq] at ih
    by_cases hb : isDigitByte b = true
    · simp [spanDigitBytes, hb, ih.1, ih.2]
    · simp [spanDigitBytes, hb]

/-- The digits of a whole part are read the same before what ends a number. -/
theorem readsBefore_wholeDigits (h : StopsNumber rest) : ReadsBefore rest wholeDigits := by
  intro s ds s' hs
  simp only [wholeDigits] at hs ⊢
  rw [spanDigitBytes_append h]
  generalize spanDigitBytes s = span at hs
  -- The part was read, so it has a digit, and a zero in front is its only one.
  match span, hs with
  | ([], []), hs => cases hs
  | ([], _ :: _), hs => cases hs
  | (0 :: _ :: _, _), hs => cases hs
  | ([d], _), hs => cases d <;> cases hs <;> rfl
  | ((n + 1) :: d :: digits, _), hs => cases hs; rfl

/-- The digits of a fraction are read the same before what ends a number. -/
theorem readsBefore_fractionDigits (h : StopsNumber rest) : ReadsBefore rest fractionDigits := by
  intro s ds s' hs
  simp only [fractionDigits] at hs ⊢
  rw [spanDigitBytes_append h]
  generalize spanDigitBytes s = span at hs
  match span, hs with
  | ([], []), hs => cases hs
  | ([], _ :: _), hs => cases hs
  | (d :: digits, _), hs => cases hs; rfl

/-- A fraction, if there is one, is read the same before what ends a number. -/
theorem readsBefore_fraction? (h : StopsNumber rest) : ReadsBefore rest fraction? := by
  intro s ds s' hs
  cases s with
  | nil =>
    -- Nothing was left, so what comes behind must not look like a fraction.
    cases hs
    cases rest with
    | nil => rfl
    | cons b rest => simp [fraction?, (h b rfl).2.1]
  | cons b s =>
    simp only [List.cons_append, fraction?] at hs ⊢
    split at hs
    · next hb =>
      rw [if_pos hb]
      exact (readsBefore_fractionDigits h).map some s ds s' hs
    · next hb =>
      cases hs
      rw [if_neg hb]
      rfl

/-- The digits of a power are read the same before what ends a number. -/
theorem readsBefore_powerDigits (h : StopsNumber rest) : ReadsBefore rest powerDigits := by
  have hpair (down : Bool) (ds : List Nat) : ReadsBefore rest fun s => .ok ((down, ds), s) := by
    intro s a s' hs
    cases hs
    rfl
  have hdigits (down : Bool) := (readsBefore_fractionDigits h).bind (hpair down)
  intro s p s' hs
  cases s with
  | nil => cases hs
  | cons b s =>
    simp only [List.cons_append, powerDigits] at hs ⊢
    -- The sign is one byte, which is there or not; what comes behind matters to the digits only.
    by_cases hplus : b = byte '+'
    · simp only [if_pos hplus] at hs ⊢
      exact hdigits false s p s' hs
    · by_cases hminus : b = byte '-'
      · simp only [if_neg hplus, if_pos hminus] at hs ⊢
        exact hdigits true s p s' hs
      · simp only [if_neg hplus, if_neg hminus] at hs ⊢
        exact hdigits false (b :: s) p s' hs

/-- A power, if there is one, is read the same before what ends a number. -/
theorem readsBefore_power? (h : StopsNumber rest) : ReadsBefore rest power? := by
  intro s p s' hs
  cases s with
  | nil =>
    cases hs
    -- Where nothing was left to read, the bytes behind must not begin a power.
    cases rest with
    | nil => rfl
    | cons b rest => simp [power?, (h b rfl).2.2]
  | cons b s =>
    simp only [List.cons_append, power?] at hs ⊢
    split at hs
    · next hb =>
      rw [if_pos hb]
      exact (readsBefore_powerDigits h).map some s p s' hs
    · next hb =>
      cases hs
      rw [if_neg hb]
      rfl

/-- A number is read the same whatever stops it. -/
theorem readsBefore_numberBehindSign (h : StopsNumber rest) (negative : Bool) :
    ReadsBefore rest (numberBehindSign negative) := by
  intro s v s' hs
  -- Each part was read, and is read the same before what comes behind the number.
  obtain ⟨⟨whole, s₁⟩, hw, hs⟩ := ok_of_bind hs
  obtain ⟨⟨fraction, s₂⟩, hf, hs⟩ := ok_of_bind hs
  obtain ⟨⟨power, s₃⟩, hp, hs⟩ := ok_of_bind hs
  have hwhole := readsBefore_wholeDigits h s whole s₁ hw
  have hfraction := readsBefore_fraction? h s₁ fraction s₂ hf
  have hpower := readsBefore_power? h s₂ power s₃ hp
  simp only [numberBehindSign, hwhole, hfraction, hpower, bind, Except.bind]
  cases hv : NumberParts.value? ⟨negative, whole, fraction, power⟩ with
  | none =>
    simp only [hv] at hs
    cases hs
  | some w =>
    simp only [hv] at hs
    cases hs
    rfl

end Stopped

/-! ### Integers -/

/-- The decimal digits of a natural. -/
def digits (n : Nat) : List Nat := if n < 10 then [n] else digits (n / 10) ++ [n % 10]
termination_by n

/-- The library writes the same digits, as characters. -/
theorem toDigits_eq (n : Nat) : Nat.toDigits 10 n = (digits n).map Nat.digitChar := by
  fun_induction digits n with
  | case1 n h => exact Nat.toDigits_of_lt_base h
  | case2 n h ih =>
    rw [Nat.toDigits_of_base_le (by omega) (Nat.not_lt.1 h), ih, List.map_append]
    rfl

/-- Digits are below ten. -/
theorem lt_of_mem_digits {n d : Nat} (h : d ∈ digits n) : d < 10 := by
  fun_induction digits n with
  | case1 n hn => rwa [List.mem_singleton.1 h]
  | case2 n hn ih =>
    rcases List.mem_append.1 h with h | h
    · exact ih h
    · rw [List.mem_singleton.1 h]
      omega

/-- A natural number is what its digits stand for. -/
theorem ofDecimalDigits_digits (n : Nat) : ofDecimalDigits (digits n) = n := by
  fun_induction digits n with
  | case1 n h => simp [ofDecimalDigits]
  | case2 n h ih =>
    rw [ofDecimalDigits] at ih
    rw [ofDecimalDigits, List.foldl_append, ih, List.foldl_cons, List.foldl_nil]
    omega

/-- Only zero is written with a zero in front. -/
theorem digits_eq_cons (n : Nat) : ∃ d ds, digits n = d :: ds ∧ (d = 0 → ds = []) := by
  fun_induction digits n with
  | case1 n h => exact ⟨n, [], rfl, fun _ => rfl⟩
  | case2 n h ih =>
    obtain ⟨d, ds, hd, hzero⟩ := ih
    refine ⟨d, ds ++ [n % 10], by rw [hd, List.cons_append], ?_⟩
    -- With a zero in front the tens were zero, but there are some.
    rintro rfl
    have := ofDecimalDigits_digits (n / 10)
    rw [hd, hzero rfl] at this
    simp only [ofDecimalDigits, List.foldl_cons, List.foldl_nil] at this
    omega

/-- The digits of a number that fits are gathered completely. -/
theorem gather_of_lt (ds : List Nat) (n : Nat)
    (h : ds.foldl (fun n d => 10 * n + d) n < Nat.pow 2 64) :
    gather n ds = (ds.foldl (fun n d => 10 * n + d) n, ds.length) := by
  -- More digits make the number no smaller, so every beginning of the digits fits as well.
  have le_foldl : ∀ (ds : List Nat) (n : Nat), n ≤ ds.foldl (fun n d => 10 * n + d) n := by
    intro ds
    induction ds with
    | nil => exact fun n => Nat.le_refl n
    | cons d ds ih => exact fun n => Nat.le_trans (by omega) (ih (10 * n + d))
  induction ds generalizing n with
  | nil => rfl
  | cons d ds ih =>
    rw [List.foldl_cons] at h ⊢
    rw [gather, if_pos (Nat.lt_of_le_of_lt (le_foldl ds _) h), ih _ h]
    rfl

/-- The byte of a digit. -/
def digitByte (d : Nat) : UInt8 := byte d.digitChar

/-- The byte of a digit is taken for a digit, stands for it and is that of its character. -/
private theorem digitByte_spec : ∀ d < 10, isDigitByte (digitByte d) = true ∧
    (digitByte d - byte '0').toNat = d ∧ String.utf8EncodeChar d.digitChar = [digitByte d] := by
  decide

/-- The bytes of a number are those of its digits. -/
theorem bytes_toDigits (n : Nat) : bytes (Nat.toDigits 10 n) = (digits n).map digitByte := by
  have hmap : ∀ ds : List Nat, (∀ d ∈ ds, d < 10) →
      bytes (ds.map Nat.digitChar) = ds.map digitByte := by
    intro ds hds
    induction ds with
    | nil => rfl
    | cons d ds ih =>
      rw [List.map_cons, Text.bytes_cons, (digitByte_spec d (hds d List.mem_cons_self)).2.2,
        ih fun d' hd' => hds d' (List.mem_cons_of_mem d hd')]
      rfl
  rw [toDigits_eq, hmap _ fun d => lt_of_mem_digits]

/-- Written digits are all digits. -/
theorem spanDigitBytes_digits (n : Nat) :
    spanDigitBytes ((digits n).map digitByte) = (digits n, []) := by
  have hmap : ∀ ds : List Nat, (∀ d ∈ ds, d < 10) →
      spanDigitBytes (ds.map digitByte) = (ds, []) := by
    intro ds hds
    induction ds with
    | nil => rfl
    | cons d ds ih =>
      obtain ⟨hdigit, hvalue, -⟩ := digitByte_spec d (hds d List.mem_cons_self)
      have ih := ih fun d' hd' => hds d' (List.mem_cons_of_mem d hd')
      simp only [spanDigitBytes, Prod.mk.injEq] at ih
      simp [spanDigitBytes, hdigit, hvalue, ih.1, ih.2]
  exact hmap _ fun d => lt_of_mem_digits

/-- Written digits make a whole part, which has no zero in front. -/
theorem wholeDigits_digits (n : Nat) :
    wholeDigits ((digits n).map digitByte) = .ok (digits n, []) := by
  obtain ⟨d, ds, hd, hzero⟩ := digits_eq_cons n
  rw [wholeDigits, spanDigitBytes_digits, hd]
  cases d with
  | zero =>
    rw [hzero rfl]
    rfl
  | succ d => cases ds <;> rfl

/-- A natural within its bounds is read back from its digits. -/
theorem numberBehindSign_digits {n : Nat} (h : n < Nat.pow 2 64) (negative : Bool) :
    numberBehindSign negative ((digits n).map digitByte) = .ok (signedInteger negative n, []) := by
  have hgather : gather 0 (digits n) = (n, (digits n).length) := by
    have hn := ofDecimalDigits_digits n
    rw [ofDecimalDigits] at hn
    rw [gather_of_lt _ _ (by rw [hn]; exact h), hn]
  have hvalue : NumberParts.value? ⟨negative, digits n, none, none⟩ =
      some (signedInteger negative n) := by
    simp [NumberParts.value?, hgather]
  simp only [numberBehindSign, wholeDigits_digits, bind, Except.bind, fraction?, power?, hvalue]
  rfl

/-! ### Numbers as values -/

/-- A digit is none of the other bytes with which a value begins. -/
private theorem digit_spec : ∀ n < 256, isDigitByte (UInt8.ofNat n) = true →
    isBlankByte (UInt8.ofNat n) = false ∧ UInt8.ofNat n ≠ byte 'n' ∧ UInt8.ofNat n ≠ byte 't' ∧
      UInt8.ofNat n ≠ byte 'f' ∧ UInt8.ofNat n ≠ byte '-' := by
  decide +kernel

/-- A digit begins a number without a sign. -/
theorem value_of_digit (depth : Nat) {b : UInt8} (h : isDigitByte b = true) (s : Bytes) :
    value depth (b :: s) = numberBehindSign false (b :: s) := by
  have hb := digit_spec b.toNat (UInt8.toNat_lt b)
  rw [UInt8.ofNat_toNat] at hb
  obtain ⟨hblank, hn, ht, hf, hminus⟩ := hb h
  rw [value, skipBlanks_cons hblank]
  simp only [hn, ht, hf, hminus, h, if_true, if_false]

/-- A minus begins a number below zero. -/
theorem value_minus (depth : Nat) (s : Bytes) :
    value depth (byte '-' :: s) = numberBehindSign true s := by
  rw [value, skipBlanks_cons rfl]
  rfl

/-- An integer within its bounds is read back. -/
theorem value_int {n : Int} (hlow : -(Nat.pow 2 63 : Int) ≤ n) (hhigh : n < (Nat.pow 2 64 : Int))
    (depth : Nat) {rest : Bytes} (hrest : StopsNumber rest) :
    value depth (bytes (scalar (.int n)) ++ rest) = .ok (.int n, rest) := by
  rw [scalar, Int.toString_eq_repr, Int.repr_eq_if]
  split
  · next hn =>
    -- A number that is not negative begins with a digit.
    obtain ⟨m, rfl⟩ := Int.eq_ofNat_of_zero_le hn
    have hm : m < Nat.pow 2 64 := by omega
    rw [Int.toNat_natCast, Nat.toList_repr, bytes_toDigits]
    obtain ⟨d, ds, hd, -⟩ := digits_eq_cons m
    have hdigit := (digitByte_spec d (lt_of_mem_digits (hd ▸ List.mem_cons_self))).1
    have hread := readsBefore_numberBehindSign hrest false _ _ _ (numberBehindSign_digits hm false)
    rw [hd, List.map_cons, List.cons_append] at hread ⊢
    rw [value_of_digit depth hdigit, hread]
    rfl
  · next hn =>
    -- A negative one begins with the sign, and its digits are read into the signed type.
    obtain ⟨m, hm⟩ : ∃ m : Nat, n = -(m : Int) := ⟨n.natAbs, by omega⟩
    subst hm
    have hsign : signedInteger true m = .int (-(m : Int)) := by
      have h0 : m ≠ 0 := by omega
      have h63 : ¬Nat.pow 2 63 < m := by omega
      simp [signedInteger, h0, h63]
    have hpow : Nat.pow 2 63 < Nat.pow 2 64 := by decide
    have hlt : m < Nat.pow 2 64 := by omega
    have hread := readsBefore_numberBehindSign hrest true _ _ _ (numberBehindSign_digits hlt true)
    rw [Int.neg_neg, Int.toNat_natCast, String.toList_append, Nat.toList_repr, Text.bytes_append,
      bytes_toDigits, List.append_assoc]
    exact (value_minus depth _).trans (hread.trans (by rw [hsign]; rfl))

/-- Only a number is read as a float at depth zero, and it ends where nothing is left. -/
private theorem number_of_value_float {s : Bytes} {x : Float}
    (h : value 0 s = .ok (.float x, [])) :
    ∃ negative t, numberBehindSign negative t = .ok (.float x, []) ∧
      ∀ depth rest, value depth (s ++ rest) = numberBehindSign negative (t ++ rest) := by
  rw [value] at h
  split at h
  · cases h
  · next b t hskip =>
    have hvalue (depth : Nat) (rest : Bytes) :
        value depth (s ++ rest) = value depth (b :: t ++ rest) := by
      rw [← value_skipBlanks, skipBlanks_append hskip]
    -- The first byte tells what kind of value was read, and only two kinds give a float.
    split at h
    · obtain ⟨_, -, h⟩ := ok_of_bind h
      cases h
    split at h
    · obtain ⟨_, -, h⟩ := ok_of_bind h
      cases h
    split at h
    · obtain ⟨_, -, h⟩ := ok_of_bind h
      cases h
    split at h
    · next hminus =>
      subst hminus
      exact ⟨true, t, h, fun depth rest => (hvalue depth rest).trans (value_minus depth _)⟩
    split at h
    · next hdigit =>
      exact ⟨false, b :: t, h,
        fun depth rest => (hvalue depth rest).trans (value_of_digit depth hdigit _)⟩
    split at h
    · obtain ⟨_, -, h⟩ := ok_of_bind h
      cases h
    · cases h

/-- A float that is read back when it stands alone is read back. -/
theorem value_append_of_float {s : Bytes} {x : Float} (h : value 0 s = .ok (.float x, []))
    (depth : Nat) {rest : Bytes} (hrest : StopsNumber rest) :
    value depth (s ++ rest) = .ok (.float x, rest) := by
  obtain ⟨negative, t, hread, hvalue⟩ := number_of_value_float h
  rw [hvalue]
  exact readsBefore_numberBehindSign hrest negative _ _ _ hread

end Gatehouse.Json
