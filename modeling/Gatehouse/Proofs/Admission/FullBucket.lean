import Gatehouse.Proofs.Admission.ExactBucket

/-!
# Full buckets

A client that comes for the first time finds a full bucket, so it is admitted if a full bucket holds
a token. That is plain in exact arithmetic. On binary64 numbers it has to survive rounding: a
capacity is a sum of which one term is one, and the sum may be rounded up to infinity, but never
below one; and what flows into a full bucket in no time is nothing or, if the rate is infinite, no
number at all, which the lesser of two numbers passes over.

## Key results

- `FullHoldsToken`: the law that a full bucket holds a token, whatever its quota
- `AtLeastOne`: the binary64 numbers that are not below one, by sign, mantissa and exponent
- `atLeastOne_mul`, `atLeastOne_add`, `atLeastOne_pack`: products, sums and packing keep them so
- `take?_refill_full_float`: the law for binary64 numbers
-/

namespace Gatehouse.Admission

open Float.Model (Format UnpackedFloat)
open Float.Model.UnpackedFloat (Accuracy ExtendedMantissa Sign)

/-- Numbers in which a full bucket holds a token, whatever its quota. -/
class FullHoldsToken (α : Type) [TokenArith α] : Prop where
  isSome_take?_refill_full : ∀ (q : Quota α) (now : Nat),
    ((Bucket.full q now).refill q now).take?.isSome

instance : FullHoldsToken Rat where
  isSome_take?_refill_full q now := by
    rw [Bucket.refill_full, Bucket.take?_eq, Option.isSome_ite]
    exact q.one_le_capacity

/-! ## Numbers that are at least one -/

/-- The numbers that are not below one; a finite one has a mantissa of 53 bits. -/
inductive AtLeastOne : UnpackedFloat → Prop
  | infinite : AtLeastOne (.infinity .positive)
  | finite {m : Nat} {e : Int} {h : 0 < m} (hm : m.log2 = 52) (he : -52 ≤ e) :
    AtLeastOne (.finite .positive m e h)

/-! ### Rounding -/

section Rounding

variable {m : Nat} {e : Int}

/-- A shift to the right cuts as many bits off the mantissa. -/
theorem mantissa_shiftRight (em : ExtendedMantissa) (n : Nat) :
    (em >>> n).mantissa = em.mantissa / 2 ^ n := by
  induction n with
  | zero => exact (Nat.div_one _).symm
  | succ n ih =>
    have hstep : em >>> (n + 1) = (em >>> n).shiftRightOne := rfl
    rw [hstep, ExtendedMantissa.shiftRightOne, ih, Nat.div_div_eq_div_mul, Nat.pow_succ]

/-- The bits that tell how exact a mantissa is do not count for it. -/
@[simp] theorem mantissa_ofMantissaAndAccuracy (m : Nat) (acc : Accuracy) :
    (ExtendedMantissa.ofMantissaAndAccuracy m acc).mantissa = m := by
  cases acc with
  | exact => rfl
  | inexact o => cases o <;> rfl

/-- Rounding goes to one of the two neighbours. -/
theorem roundedMantissa_bounds (em : ExtendedMantissa) :
    em.mantissa ≤ em.roundedMantissa ∧ em.roundedMantissa ≤ em.mantissa + 1 := by
  obtain ⟨m, r, s⟩ := em
  cases r <;> cases s <;>
    simp only [ExtendedMantissa.roundedMantissa, ExtendedMantissa.accuracy,
      Accuracy.roundToNearestEven] <;> omega

/-- A number of so many bits is at least the power of two with as many. -/
theorem two_pow_le_of_log2_eq {k : Nat} (h : m.log2 = k + 1) : 2 ^ (k + 1) ≤ m := by
  have hm : m ≠ 0 := by
    rintro rfl
    cases h
  exact h ▸ Nat.log2_self_le hm

/-- A shift to the left adds as many bits. -/
theorem log2_shiftLeft {n : Nat} (hn : n ≠ 0) (k : Nat) : (n <<< k).log2 = n.log2 + k := by
  have hlow := Nat.log2_self_le hn
  have hhigh := Nat.lt_log2_self (n := n)
  have hpos := Nat.two_pow_pos k
  rw [Nat.shiftLeft_eq, Nat.log2_eq_iff (Nat.mul_ne_zero hn hpos.ne'), Nat.pow_add,
    Nat.add_right_comm, Nat.pow_add]
  exact ⟨Nat.mul_le_mul_right _ hlow, Nat.mul_lt_mul_of_pos_right hhigh hpos⟩

/-- A number that is not below one is cut to 53 bits. -/
theorem targetExponent_eq (he : 0 ≤ m.log2 + e) :
    Format.binary64.targetExponent (Float.Model.totalExponent m e) = m.log2 + e - 52 := by
  show max ((m.log2 : Int) + 1 + e - (53 : Nat)) (-1074) = _
  omega

/-- A number that is not below one is shifted until 53 bits are left. -/
theorem shiftToTargetExponent_eq (hm : 52 ≤ m.log2) (he : 0 ≤ m.log2 + e) (acc : Accuracy) :
    UnpackedFloat.shiftToTargetExponent Format.binary64 m e acc =
      (ExtendedMantissa.ofMantissaAndAccuracy m acc >>> (m.log2 - 52),
        e + (m.log2 - 52 : Nat)) := by
  have hshift : ((m.log2 : Int) + e - 52 - e).toNat = m.log2 - 52 := by omega
  simp only [UnpackedFloat.shiftToTargetExponent, UnpackedFloat.shiftToExponent,
    targetExponent_eq he, hshift]

/-- A mantissa of 53 bits stays, and one that was rounded up to 54 loses its last bit. -/
theorem log2_shiftToTargetExponent (hlow : 2 ^ 52 ≤ m) (hhigh : m ≤ 2 ^ 53) (he : -52 ≤ e) :
    (UnpackedFloat.shiftToTargetExponent Format.binary64 m e .exact).1.mantissa.log2 = 52 ∧
      -52 ≤ (UnpackedFloat.shiftToTargetExponent Format.binary64 m e .exact).2 := by
  have hm : 52 ≤ m.log2 := (Nat.le_log2 (by omega)).2 hlow
  rw [shiftToTargetExponent_eq hm (by omega), mantissa_shiftRight, mantissa_ofMantissaAndAccuracy]
  refine ⟨?_, by omega⟩
  rcases Nat.lt_or_eq_of_le hhigh with hlt | rfl
  · have hlog : m.log2 = 52 := (Nat.log2_eq_iff (by omega)).2 ⟨hlow, hlt⟩
    rw [hlog, Nat.sub_self, Nat.pow_zero, Nat.div_one, hlog]
  · decide

/-- A number of 53 bits or more that is not below one is not rounded below one. -/
theorem atLeastOne_roundWithAccuracy (hm : 52 ≤ m.log2) (he : 0 ≤ m.log2 + e) (acc : Accuracy) :
    AtLeastOne (UnpackedFloat.roundWithAccuracy Format.binary64 .positive m e acc) := by
  have hm0 : m ≠ 0 := by
    rintro rfl
    simp at hm
  have hround := roundedMantissa_bounds
    (ExtendedMantissa.ofMantissaAndAccuracy m acc >>> (m.log2 - 52))
  rw [mantissa_shiftRight, mantissa_ofMantissaAndAccuracy] at hround
  -- All but 53 bits are cut off before the number is rounded.
  have hlow : 2 ^ 52 ≤ m / 2 ^ (m.log2 - 52) := by
    rw [Nat.le_div_iff_mul_le (Nat.two_pow_pos _), ← Nat.pow_add, Nat.add_sub_cancel' hm]
    exact Nat.log2_self_le hm0
  have hhigh : m / 2 ^ (m.log2 - 52) < 2 ^ 53 := by
    rw [Nat.div_lt_iff_lt_mul (Nat.two_pow_pos _), ← Nat.pow_add,
      show 53 + (m.log2 - 52) = m.log2 + 1 by omega]
    exact Nat.lt_log2_self
  obtain ⟨hlog, hexp⟩ := log2_shiftToTargetExponent (e := e + (m.log2 - 52 : Nat))
    (hlow.trans hround.1) (by omega) (by omega)
  generalize hcut : UnpackedFloat.shiftToTargetExponent Format.binary64
    (ExtendedMantissa.ofMantissaAndAccuracy m acc >>> (m.log2 - 52)).roundedMantissa
    (e + (m.log2 - 52 : Nat)) .exact = cut at hlog hexp
  have hne : cut.1.mantissa ≠ 0 := by
    intro hzero
    rw [hzero] at hlog
    cases hlog
  have hrounded : UnpackedFloat.roundWithAccuracy Format.binary64 .positive m e acc =
      .finite .positive cut.1.mantissa cut.2 (Nat.pos_of_ne_zero hne) := by
    unfold UnpackedFloat.roundWithAccuracy
    rw [shiftToTargetExponent_eq hm he]
    dsimp only
    rw [hcut]
    exact dif_neg hne
  rw [hrounded]
  exact .finite hlog hexp

/-- A whole number of any length stays at least one when it is rounded. -/
theorem atLeastOne_round {n : Nat} (hn : n ≠ 0) (he : 0 ≤ n.log2 + e) :
    AtLeastOne (UnpackedFloat.round Format.binary64 .positive n e) := by
  have hshift : (e - ((n.log2 : Int) + e - 52)).toNat = 52 - n.log2 := by omega
  have hlog := log2_shiftLeft hn (52 - n.log2)
  simp only [UnpackedFloat.round, targetExponent_eq he, UnpackedFloat.decreaseExponent, hshift]
  exact atLeastOne_roundWithAccuracy (by omega) (by omega) .exact

/-- A positive sum that is not below one stays so when it is rounded. -/
theorem atLeastOne_normalize {n : Int} (hn : 0 < n) (he : 0 ≤ n.toNat.log2 + e) (s : Sign) :
    AtLeastOne (UnpackedFloat.normalize Format.binary64 n e s) := by
  have hcompare : compare n 0 = .gt := Int.compare_eq_gt.2 hn
  simp only [UnpackedFloat.normalize, hcompare]
  exact atLeastOne_round (by omega) he

end Rounding

/-! ### Operations -/

section Operations

variable {x y : UnpackedFloat}

/-- Products stay at least one. -/
theorem atLeastOne_mul (hx : AtLeastOne x) (hy : AtLeastOne y) :
    AtLeastOne (UnpackedFloat.mul Format.binary64 x y) := by
  cases hx with
  | infinite => cases hy <;> exact .infinite
  | @finite m e _ hm he =>
    cases hy with
    | infinite => exact .infinite
    | @finite m' e' _ hm' he' =>
      -- The product of two mantissas of 53 bits has 105 bits at least.
      have hle : 2 ^ 52 * 2 ^ 52 ≤ m * m' :=
        Nat.mul_le_mul (two_pow_le_of_log2_eq hm) (two_pow_le_of_log2_eq hm')
      have hlog : 104 ≤ (m * m').log2 := (Nat.le_log2 (by omega)).2 hle
      exact atLeastOne_roundWithAccuracy (by omega) (by omega) .exact

/-- A sum is no shorter than its first term. -/
theorem log2_le_log2_add {m : Nat} (hm : m ≠ 0) (n : Nat) : m.log2 ≤ (m + n).log2 :=
  (Nat.le_log2 (by omega)).2 ((Nat.log2_self_le hm).trans (Nat.le_add_right m n))

/-- Sums stay at least one. -/
theorem atLeastOne_add (hx : AtLeastOne x) (hy : AtLeastOne y) :
    AtLeastOne (UnpackedFloat.add Format.binary64 x y) := by
  cases hx with
  | infinite => cases hy <;> exact .infinite
  | @finite m e h hm he =>
    cases hy with
    | infinite => exact .infinite
    | @finite m' e' _ hm' he' =>
      have hshift := log2_shiftLeft h.ne' (e - min e e').toNat
      have hpos : 0 < m <<< (e - min e e').toNat := by
        rw [Nat.shiftLeft_eq]
        exact Nat.mul_pos h (Nat.two_pow_pos _)
      show AtLeastOne (UnpackedFloat.normalize Format.binary64
        ((m <<< (e - min e e').toNat : Nat) + (m' <<< (e' - min e e').toNat : Nat)) (min e e')
        .positive)
      -- The sum is not shorter than the first mantissa, brought to the lesser exponent.
      generalize m <<< (e - min e e').toNat = l at hshift hpos
      generalize m' <<< (e' - min e e').toNat = r
      have hlog := log2_le_log2_add hpos.ne' r
      have hsum : ((l : Int) + r).toNat = l + r := by omega
      exact atLeastOne_normalize (by omega) (by rw [hsum]; omega) .positive

/-- A zero of either sign adds nothing to a number that is at least one. -/
theorem add_zero_of_atLeastOne (hx : AtLeastOne x) (s : Sign) :
    UnpackedFloat.add Format.binary64 x (.zero s) = x := by
  cases hx <;> rfl

end Operations

/-! ### Bits -/

/-- The first bit of a mantissa of 53 bits needs no place. -/
theorem toNat_one_append {m : Nat} (hm : m.log2 = 52) : (1#1 ++ BitVec.ofNat 52 m).toNat = m := by
  obtain ⟨hlow, hhigh⟩ := (Nat.log2_eq_iff (by rintro rfl; cases hm)).1 hm
  rw [BitVec.toNat_append, ← Nat.shiftLeft_add_eq_or_of_lt (BitVec.isLt _), Nat.shiftLeft_eq,
    BitVec.toNat_ofNat, BitVec.toNat_ofNat]
  omega

/-- A sign is read from the bits as it was. -/
theorem sign_packComponents {spec : Format} (sign : Sign) (exponent : BitVec spec.exponentBits)
    (mantissa : BitVec spec.mantissaBitsWithoutImplicit) :
    Sign.ofBitVec (UnpackedFloat.unpackSign
      (UnpackedFloat.packComponents spec sign exponent mantissa)) = sign := by
  have hbits : UnpackedFloat.unpackSign
      (UnpackedFloat.packComponents spec sign exponent mantissa) = sign.toBitVec := by
    apply BitVec.eq_of_getLsbD_eq
    intro i hi
    obtain rfl : i = 0 := by omega
    show (BitVec.cast _
      (BitVec.extractLsb _ _ (sign.toBitVec ++ exponent ++ mantissa))).getLsbD 0 = _
    simp [BitVec.getLsbD_append, BitVec.getElem_append]
  rw [hbits]
  cases sign <;> rfl

/-- What is no number stays so when it is packed. -/
theorem unpack_pack_notANumber : (Float.Model.pack .notANumber).unpack = .notANumber := by rfl

/-- A zero stays what it is when it is packed. -/
theorem unpack_pack_zero (sign : Sign) : (Float.Model.pack (.zero sign)).unpack = .zero sign := by
  cases sign <;> rfl

/-- A number is read from bits whose exponent is that of neither an infinite number nor a subnormal
    one. -/
theorem unpack_of_normal {b : BitVec Format.binary64.numBits}
    (hones : UnpackedFloat.unpackExponent b ≠ -1#11)
    (hzeros : UnpackedFloat.unpackExponent b ≠ 0#11) :
    ∃ h, UnpackedFloat.unpack Format.binary64 b =
      .finite (Sign.ofBitVec (UnpackedFloat.unpackSign b))
        (1#1 ++ UnpackedFloat.unpackMantissa b).toNat
        ((UnpackedFloat.unpackExponent b).toNat - 1075) h :=
  ⟨_, (if_neg hones).trans (if_neg hzeros)⟩

/-- A number with a mantissa of 53 bits is read from its bits as it was. -/
theorem unpack_packComponents {m p : Nat} (hm : m.log2 = 52) (hp : 0 < p) (hp' : p < 2047)
    (sign : Sign) :
    UnpackedFloat.unpack Format.binary64 (UnpackedFloat.packComponents Format.binary64 sign
      (BitVec.ofNat 11 p) (BitVec.ofNat 52 m)) =
        .finite sign m (p - 1075) (Nat.pos_of_ne_zero (by rintro rfl; cases hm)) := by
  have hexp : (BitVec.ofNat 11 p).toNat = p := by
    rw [BitVec.toNat_ofNat]
    omega
  have hones : BitVec.ofNat 11 p ≠ -1#11 := by
    rw [Ne, ← BitVec.toNat_inj, hexp, show (-1#11).toNat = 2047 by decide]
    omega
  have hzeros : BitVec.ofNat 11 p ≠ 0#11 := by
    rw [Ne, ← BitVec.toNat_inj, hexp, BitVec.toNat_zero]
    omega
  obtain ⟨hpos, hunpack⟩ := unpack_of_normal
    (b := UnpackedFloat.packComponents Format.binary64 sign (BitVec.ofNat 11 p) (BitVec.ofNat 52 m))
    (by rwa [UnpackedFloat.unpackExponent_packComponents])
    (by rwa [UnpackedFloat.unpackExponent_packComponents])
  rw [hunpack, UnpackedFloat.finite.injEq, sign_packComponents,
    UnpackedFloat.unpackMantissa_packComponents, UnpackedFloat.unpackExponent_packComponents, hexp]
  exact ⟨rfl, toNat_one_append hm, rfl⟩

/-- A number stays at least one when it is packed, though it may become infinite. -/
theorem atLeastOne_pack {x : UnpackedFloat} (hx : AtLeastOne x) :
    AtLeastOne (Float.Model.pack x).unpack := by
  have hinfinite : AtLeastOne (UnpackedFloat.unpack Format.binary64
      (UnpackedFloat.packedInfinity Format.binary64 .positive)) := .infinite
  cases hx with
  | infinite => exact hinfinite
  | @finite m e _ hm he =>
    show AtLeastOne (UnpackedFloat.unpack Format.binary64
      (if 2 ^ 11 ≤ (e + 1023 + (52 : Nat)).toNat + 1 then
        UnpackedFloat.packedInfinity Format.binary64 .positive
      else if m.log2 + 1 = 53 then
        UnpackedFloat.packComponents Format.binary64 .positive
          (BitVec.ofNat 11 (e + 1023 + (52 : Nat)).toNat) (BitVec.ofNat 52 m)
      else _))
    rw [if_pos (show m.log2 + 1 = 53 by omega)]
    split
    · exact hinfinite
    · next hfits =>
      have hlt : (e + 1023 + (52 : Nat)).toNat < 2047 := by
        have : (2 : Nat) ^ 11 = 2048 := rfl
        omega
      rw [unpack_packComponents hm (by omega) hlt]
      exact .finite hm (by omega)

/-! ## Full buckets on binary64 numbers -/

/-- The number that a float stands for. -/
def numberOf (x : Float) : UnpackedFloat := x.toModel.unpack

/-- Floats are added as the numbers that they stand for, and the sum is packed. -/
theorem numberOf_add (x y : Float) : numberOf (x + y) =
    (Float.Model.pack (UnpackedFloat.add Format.binary64 (numberOf x) (numberOf y))).unpack := rfl

/-- Floats are multiplied as the numbers that they stand for, and the product is packed. -/
theorem numberOf_mul (x y : Float) : numberOf (x * y) =
    (Float.Model.pack (UnpackedFloat.mul Format.binary64 (numberOf x) (numberOf y))).unpack := rfl

/-- One has a mantissa of 53 bits. -/
theorem numberOf_one :
    numberOf (Float.ofNat 1) = .finite .positive (2 ^ 52) (-52) (Nat.two_pow_pos 52) := by
  rfl

/-- One is at least one. -/
theorem atLeastOne_one : AtLeastOne (numberOf (Float.ofNat 1)) := by
  rw [numberOf_one]
  exact .finite (by decide) (by decide)

/-- A whole number goes in with all its bits, and is multiplied by the zeroth power of ten. -/
theorem ofScientific_zero {n : Nat} (hn : n ≠ 0) : UnpackedFloat.ofScientific Format.binary64 n 0 =
    UnpackedFloat.roundWithAccuracy Format.binary64 .positive (n <<< 53 * 1) (-53 + 0) .exact := by
  have hlarge : ¬((0 : Int) > 2 ^ 11) := by decide
  have hsmall : ¬((0 : Int) < -(2 ^ 11 + (n.log2 : Int))) := by omega
  exact (dif_neg hn).trans ((if_neg hlarge).trans ((if_neg hsmall).trans (if_pos (by decide))))

/-- A whole number that is not zero stays at least one when it is made a float. -/
theorem atLeastOne_ofNat {n : Nat} (hn : n ≠ 0) : AtLeastOne (numberOf (Float.ofNat n)) := by
  have hofNat : Float.ofNat n = Float.ofScientific n false 0 := rfl
  rw [hofNat, Float.ofScientific]
  split
  · next hsmall =>
    -- A small number is exact, and multiplied by a power of ten, which is one.
    have hone : AtLeastOne (numberOf Float.exactlyRepresentablePowersOfTen[0]) := atLeastOne_one
    have htoNat : n.toUInt64.toNat = n := by
      rw [UInt64.toNat_ofNat']
      omega
    have hcount : AtLeastOne (numberOf n.toUInt64.toFloat) := by
      refine atLeastOne_pack (atLeastOne_normalize ?_ ?_ _)
      · rw [htoNat]
        omega
      · rw [htoNat]
        omega
    exact atLeastOne_pack (atLeastOne_mul hcount hone)
  · have hlog := log2_shiftLeft hn 53
    have hscientific : AtLeastOne (UnpackedFloat.ofScientific Format.binary64 n 0) := by
      rw [ofScientific_zero hn, Nat.mul_one]
      exact atLeastOne_roundWithAccuracy (by omega) (by omega) .exact
    exact atLeastOne_pack hscientific

/-- A float that stands for a number that is at least one is not below one. -/
theorem one_le_of_atLeastOne {x : Float} (hx : AtLeastOne (numberOf x)) : Float.ofNat 1 ≤ x := by
  have hle : UnpackedFloat.le (numberOf (Float.ofNat 1)) (numberOf x) = true := by
    rw [numberOf_one]
    generalize numberOf x = n at hx
    cases hx with
    | infinite => rfl
    | @finite m e _ hm he =>
      have hlow := two_pow_le_of_log2_eq hm
      -- Exponents are compared first, then mantissas, and one has the least of both.
      show ((compare (-52) e).then (compare (2 ^ 52) m)).isLE = true
      rw [Ordering.isLE_then_iff_and]
      exact ⟨Int.isLE_compare.2 he, .inr (Nat.isLE_compare.2 hlow)⟩
  exact decide_eq_true (p := UnpackedFloat.le (numberOf (Float.ofNat 1)) (numberOf x) = true) hle

/-- The lesser of two numbers is at least one if both are, or if the second is and the first is no
    number. -/
theorem atLeastOne_floatLesser {x y : Float} (hx : x.isNaN = false → AtLeastOne (numberOf x))
    (hy : AtLeastOne (numberOf y)) : AtLeastOne (numberOf (floatLesser x y)) := by
  unfold floatLesser
  by_cases hnan : x.isNaN = true
  · rw [if_pos hnan]
    exact hy
  · have hx := hx (Bool.eq_false_of_not_eq_true hnan)
    rw [if_neg hnan]
    split
    · exact hx
    · split
      · exact hx
      · exact hy

/-- The capacity of every quota is at least one, be its burst so large that it is infinite. -/
theorem atLeastOne_capacity (q : Quota Float) : AtLeastOne (numberOf q.capacity) := by
  obtain ⟨perMinute, burst⟩ := q
  cases burst with
  | zero =>
    have hadd : numberOf (Float.ofNat 0 + Float.ofNat 1) = numberOf (Float.ofNat 1) := by rfl
    exact hadd ▸ atLeastOne_one
  | succ n =>
    exact atLeastOne_pack (atLeastOne_add (atLeastOne_ofNat (Nat.succ_ne_zero n)) atLeastOne_one)

/-- What flows in in no time is nothing, or no number. -/
theorem numberOf_inflow (r : Float) :
    (∃ s, numberOf (TokenArith.seconds 0 * r) = .zero s) ∨
      numberOf (TokenArith.seconds 0 * r) = .notANumber := by
  have hseconds : numberOf (TokenArith.seconds 0) = .zero .positive := by rfl
  rw [numberOf_mul, hseconds]
  cases numberOf r with
  | infinity s | notANumber => exact .inr unpack_pack_notANumber
  | zero s | finite s m e h => exact .inl ⟨_, unpack_pack_zero _⟩

/-- A full bucket into which nothing flowed, or what is no number, is full or holds no number. -/
theorem atLeastOne_add_inflow {x y : Float} (hx : AtLeastOne (numberOf x))
    (hy : (∃ s, numberOf y = .zero s) ∨ numberOf y = .notANumber) (hnan : (x + y).isNaN = false) :
    AtLeastOne (numberOf (x + y)) := by
  obtain ⟨s, hy⟩ | hy := hy
  · rw [numberOf_add, hy, add_zero_of_atLeastOne hx]
    exact atLeastOne_pack hx
  · have hadd : ∀ n, UnpackedFloat.add Format.binary64 n .notANumber = .notANumber := by
      intro n
      cases n <;> rfl
    have hsum : numberOf (x + y) = .notANumber := by
      rw [numberOf_add, hy, hadd]
      exact unpack_pack_notANumber
    have hisNaN : (x + y).isNaN = (numberOf (x + y)).isNaN := rfl
    rw [hisNaN, hsum] at hnan
    cases hnan

/-- The law for binary64 numbers. -/
theorem take?_refill_full_float (q : Quota Float) (now : Nat) :
    ((Bucket.full q now).refill q now).take?.isSome := by
  -- No time has passed, but the product with the rate is computed all the same.
  have htokens : ((Bucket.full q now).refill q now).tokens =
      floatLesser (q.capacity + TokenArith.seconds 0 * q.perSecond) q.capacity := by
    rw [← Nat.sub_self now]
    rfl
  have hcap := atLeastOne_capacity q
  have hone : Float.ofNat 1 ≤ ((Bucket.full q now).refill q now).tokens := by
    rw [htokens]
    exact one_le_of_atLeastOne
      (atLeastOne_floatLesser (atLeastOne_add_inflow hcap (numberOf_inflow _)) hcap)
  rw [Bucket.take?, if_pos (show TokenArith.atMost (TokenArith.ofNat 1) _ = true from
    decide_eq_true hone)]
  rfl

instance : FullHoldsToken Float := ⟨take?_refill_full_float⟩

end Gatehouse.Admission
