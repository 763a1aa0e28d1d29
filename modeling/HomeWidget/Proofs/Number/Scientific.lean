import HomeWidget.Number.Decimal
import HomeWidget.Proofs.Number.Double

/-!
# Decimals to doubles

A decimal whose value is covered by a double is read as that double. Two paths lead there: small numbers are products or
quotients of two exact doubles, the others are rounded once from whole numbers; and what is far out of the range of
doubles is recognised before any power of ten is formed.

Main results: `ofScientific_eq`, `Decimal.toFloat_eq`.
-/
namespace HomeWidget

open Float.Model UnpackedFloat

namespace Binary

/-- The double with the given parts. -/
def Regular.toFloat {b : Binary} (hb : b.Regular) (s : Sign) : Float :=
  .ofModel (.pack (.finite s b.mantissa b.exponent hb.pos))

/-- A regular mantissa and exponent are what the double made of them is taken apart into. -/
theorem Regular.unpack_toFloat {b : Binary} (hb : b.Regular) (s : Sign) :
    (hb.toFloat s).toModel.unpack = .finite s b.mantissa b.exponent hb.pos := unpack_pack hb s

/-- Such a double is finite. -/
theorem Regular.isFinite_toFloat {b : Binary} (hb : b.Regular) (s : Sign) : (hb.toFloat s).isFinite = true := by
  show (hb.toFloat s).toModel.unpack.isFinite = true
  rw [hb.unpack_toFloat]
  rfl

theorem Regular.neg_toFloat {b : Binary} (hb : b.Regular) : -hb.toFloat .positive = hb.toFloat .negative := by
  show Float.ofModel (.pack (hb.toFloat .positive).toModel.unpack.neg) = _
  rw [hb.unpack_toFloat]
  rfl

/-- A double that is not zero is put together from its parts. -/
theorem toFloat_ofFloat {x : Float} (hx : x.isFinite = true) (hb : (ofFloat x).Regular) :
    hb.toFloat (ofFloat x).sign = x := by
  unfold Regular.toFloat
  rw [← unpacked_of_pos hb.pos, ← unpack_eq hx, ofModel_pack_unpack]

end Binary

namespace Rounding

/-! ## §1. The range of doubles -/

variable {b : Binary} {v : ℚ}

/-- A value that a double covers is below the range. -/
theorem lt_of_covers (hb : b.Regular) (hv : b.Covers (v / 2 ^ b.exponent)) : v < 2 ^ 1024 := by
  have hm : (b.mantissa : ℚ) + 1 ≤ 2 ^ 53 := by exact_mod_cast hb.lt
  have hlt : v / 2 ^ b.exponent < 2 ^ 53 := by linarith [hv.high]
  rw [div_lt_iff₀ (zpow_pos two_pos _), ← zpow_natCast, ← zpow_add₀ two_ne_zero] at hlt
  have hexp : ((53 : ℕ) : ℤ) + b.exponent ≤ (1024 : ℕ) := by
    have := hb.high
    omega
  have hle := zpow_le_zpow_right₀ (one_le_two : (1 : ℚ) ≤ 2) hexp
  rw [zpow_natCast 2 1024] at hle
  exact hlt.trans_le hle

/-- A value that a double covers does not vanish. -/
theorem le_of_covers (hb : b.Regular) (hv : b.Covers (v / 2 ^ b.exponent)) : (2 : ℚ) ^ (-1075 : ℤ) ≤ v := by
  have hm : (1 : ℚ) ≤ b.mantissa := by exact_mod_cast hb.pos
  have hle : (2 : ℚ) ^ (-1 : ℤ) ≤ v / 2 ^ b.exponent := by
    rw [zpow_neg_one]
    linarith [hv.low, b.lowGap_le]
  rw [le_div_iff₀ (zpow_pos two_pos _), ← zpow_add₀ two_ne_zero] at hle
  have hexp : (-1075 : ℤ) ≤ -1 + b.exponent := by
    have := hb.low
    omega
  exact (zpow_le_zpow_right₀ one_le_two hexp).trans hle

/-! ## §2. The general path -/

/-- A power of ten below one is at most the power of two of the same exponent. -/
theorem ten_zpow_le {k : ℤ} (hk : k ≤ 0) : (10 : ℚ) ^ k ≤ 2 ^ k := by
  obtain ⟨n, rfl⟩ : ∃ n : ℕ, k = -(n : ℤ) := ⟨k.natAbs, by omega⟩
  rw [zpow_neg, zpow_neg, zpow_natCast, zpow_natCast]
  exact inv_anti₀ (by positivity) (pow_le_pow_left₀ (by norm_num) (by norm_num) n)

/-- A power of ten above one is at least the power of two of the same exponent. -/
theorem two_zpow_le {k : ℤ} (hk : 0 ≤ k) : (2 : ℚ) ^ k ≤ 10 ^ k := by
  obtain ⟨n, rfl⟩ := Int.eq_ofNat_of_zero_le hk
  rw [zpow_natCast, zpow_natCast]
  exact pow_le_pow_left₀ (by norm_num) (by norm_num) n

variable {n : ℕ} {k : ℤ}

/-- The power of ten of a covered decimal is not too great to be formed. -/
theorem exponent_le (hn : 0 < n) (hb : b.Regular) (hv : b.Covers (n * 10 ^ k / 2 ^ b.exponent)) : k ≤ 2 ^ 11 := by
  by_contra hk
  -- otherwise the value would be beyond the largest double
  have hn' : (1 : ℚ) ≤ n := by exact_mod_cast hn
  have hk' : (1024 : ℤ) ≤ k := by omega
  have h1 : (2 : ℚ) ^ (1024 : ℤ) ≤ 2 ^ k := zpow_le_zpow_right₀ one_le_two hk'
  have h2 : (2 : ℚ) ^ k ≤ 10 ^ k := two_zpow_le (by omega)
  have h3 : (10 : ℚ) ^ k ≤ n * 10 ^ k := le_mul_of_one_le_left (by positivity) hn'
  have h4 := lt_of_covers hb hv
  rw [← zpow_natCast 2 1024] at h4
  exact absurd (h1.trans (h2.trans h3)) (not_le.2 h4)

/-- The power of ten of a covered decimal is not too small to be formed. -/
theorem le_exponent (hb : b.Regular) (hv : b.Covers (n * 10 ^ k / 2 ^ b.exponent)) :
    -(2 ^ 11 + (n.log2 : ℤ)) ≤ k := by
  by_contra hk
  -- otherwise the value would be below half of the smallest double
  have h1 : (n : ℚ) ≤ 2 ^ ((n.log2 : ℤ) + 1) := by
    have : n ≤ 2 ^ (n.log2 + 1) := Nat.lt_log2_self.le
    exact_mod_cast this
  have h2 : (10 : ℚ) ^ k ≤ 2 ^ k := ten_zpow_le (by omega)
  have h3 : (n : ℚ) * 10 ^ k ≤ 2 ^ ((n.log2 : ℤ) + 1) * 2 ^ k := mul_le_mul h1 h2 (by positivity) (by positivity)
  rw [← zpow_add₀ two_ne_zero] at h3
  have h4 := (le_of_covers hb hv).trans h3
  have h5 := (zpow_le_zpow_iff_right₀ one_lt_two).1 h4
  omega

/-- A decimal is rounded to the double that covers it. -/
theorem unpacked_ofScientific (hn : 0 < n) (hb : b.Regular) (hv : b.Covers (n * 10 ^ k / 2 ^ b.exponent)) :
    UnpackedFloat.ofScientific .binary64 n k = .finite .positive b.mantissa b.exponent hb.pos := by
  have hsmall : ¬k > 2 ^ Format.binary64.exponentBits := not_lt.2 (exponent_le hn hb hv)
  have hlarge : ¬k < -(2 ^ Format.binary64.exponentBits + (n.log2 : ℤ)) := not_lt.2 (le_exponent hb hv)
  unfold UnpackedFloat.ofScientific
  rw [dif_neg hn.ne', if_neg hsmall, if_neg hlarge]
  by_cases hk : 0 ≤ k
  · -- a power of ten that is whole: one product, the mantissa moved up so that it has bits enough
    rw [if_pos hk]
    have hlarge : 2 ^ 52 ≤ (n <<< 53) * 10 ^ k.toNat := by
      rw [Nat.shiftLeft_eq]
      calc 2 ^ 52 ≤ 1 * 2 ^ 53 * 1 := by norm_num
        _ ≤ n * 2 ^ 53 * 10 ^ k.toNat :=
          Nat.mul_le_mul (Nat.mul_le_mul_right _ hn) (Nat.pow_pos (by norm_num))
    refine mul_eq _ _ hlarge hb ?_
    have hpow : (10 : ℚ) ^ k = 10 ^ k.toNat := by rw [← zpow_natCast, Int.toNat_of_nonneg hk]
    have hvalue : (n : ℚ) * (10 : ℚ) ^ k
        = ((n <<< 53 : ℕ) : ℚ) * ((10 ^ k.toNat : ℕ) : ℚ) * (2 : ℚ) ^ (-53 + 0 : ℤ) := by
      rw [hpow, Nat.shiftLeft_eq]
      push_cast
      ring
    rw [hvalue] at hv
    exact hv
  · -- the other powers: one quotient
    rw [if_neg hk]
    refine div_eq _ _ hb ?_
    have hpow : (10 : ℚ) ^ k = (10 ^ (-k).toNat)⁻¹ := by
      rw [← zpow_natCast, Int.toNat_of_nonneg (by omega), zpow_neg, inv_inv]
    have hvalue : (n : ℚ) * (10 : ℚ) ^ k = n / ((10 ^ (-k).toNat : ℕ) : ℚ) * (2 : ℚ) ^ (0 - 0 : ℤ) := by
      rw [hpow, sub_self, zpow_zero, mul_one, div_eq_mul_inv, Nat.cast_pow, Nat.cast_ofNat]
    rw [hvalue] at hv
    exact hv

/-! ## §3. The path of small numbers -/

/-- The parts of a whole number below 53 bits: its first bit is moved to the front. -/
def wholeParts (n : ℕ) : Binary := ⟨false, n * 2 ^ (52 - n.log2), -((52 - n.log2 : ℕ) : ℤ)⟩

theorem log2_le {n : ℕ} (hn : 0 < n) (hlt : n < 2 ^ 53) : n.log2 ≤ 52 :=
  Nat.lt_succ_iff.1 ((Nat.log2_lt hn.ne').2 hlt)

/-- A number of up to 53 bits, shifted up to its full width, is regular. -/
theorem regular_wholeParts (hn : 0 < n) (hlt : n < 2 ^ 53) : (wholeParts n).Regular := by
  have hlog := log2_le hn hlt
  have hpow : 2 ^ n.log2 * 2 ^ (52 - n.log2) = 2 ^ 52 := by
    rw [← Nat.pow_add]
    congr 1
    omega
  have hlow : 2 ^ 52 ≤ n * 2 ^ (52 - n.log2) := by
    rw [← hpow]
    exact Nat.mul_le_mul_right _ (Nat.log2_self_le hn.ne')
  have hhigh : n * 2 ^ (52 - n.log2) < 2 ^ 53 := by
    calc n * 2 ^ (52 - n.log2) < 2 ^ (n.log2 + 1) * 2 ^ (52 - n.log2) :=
          Nat.mul_lt_mul_of_pos_right Nat.lt_log2_self (Nat.two_pow_pos _)
      _ = 2 * (2 ^ n.log2 * 2 ^ (52 - n.log2)) := by ring
      _ = 2 ^ 53 := by rw [hpow]
  exact ⟨(Nat.two_pow_pos 52).trans_le hlow, hhigh, by show (-1074 : ℤ) ≤ -_; omega, by show -_ ≤ (971 : ℤ); omega,
    Or.inr hlow⟩

/-- Shifted up to its full width a number has the same size. -/
theorem size_wholeParts (n : ℕ) : (wholeParts n).size = n := by
  unfold Binary.size wholeParts
  dsimp only
  rw [Nat.cast_mul, Nat.cast_pow, Nat.cast_ofNat, zpow_neg, zpow_natCast, mul_assoc, mul_inv_cancel₀ (by positivity),
    mul_one]

/-- Shifted up to its full width a number fills the mantissa. -/
theorem full_wholeParts (hn : 0 < n) (hlt : n < 2 ^ 53) : 2 ^ 52 ≤ (wholeParts n).mantissa := by
  apply (regular_wholeParts hn hlt).full.resolve_left
  show -((52 - n.log2 : ℕ) : ℤ) ≠ -1074
  omega

/-- A whole number below 53 bits is rounded to itself. -/
theorem round_whole (hn : 0 < n) (hlt : n < 2 ^ 53) :
    UnpackedFloat.round .binary64 .positive n 0
      = .finite .positive (wholeParts n).mantissa (wholeParts n).exponent (regular_wholeParts hn hlt).pos := by
  have hlog := log2_le hn hlt
  have hshift : (0 - Format.binary64.targetExponent (totalExponent n 0)).toNat = 52 - n.log2 := by
    rw [targetExponent_eq]
    unfold totalExponent
    omega
  have hround : UnpackedFloat.round .binary64 .positive n 0
      = roundWithAccuracy .binary64 .positive (wholeParts n).mantissa (wholeParts n).exponent .exact := by
    unfold UnpackedFloat.round decreaseExponent wholeParts
    dsimp only
    rw [hshift, Nat.shiftLeft_eq, zero_sub]
  have hexact : ((wholeParts n).mantissa : ℚ) * 2 ^ (wholeParts n).exponent / 2 ^ (wholeParts n).exponent
      = (wholeParts n).mantissa := mul_div_cancel_right₀ _ (zpow_ne_zero _ two_ne_zero)
  rw [hround]
  refine @roundWithAccuracy_eq _ _ _ _ _ (regular_wholeParts hn hlt)
    ((wholeParts n).mantissa * 2 ^ (wholeParts n).exponent) ?_ ?_ ?_
  · rw [hexact]
    exact (wholeParts n).covers_self
  · rw [hexact]
    exact keeps_exact _
  · have hfull := le_log2 (full_wholeParts hn hlt)
    rw [targetExponent_eq]
    unfold totalExponent
    omega

/-- A number becomes a double by one rounding. -/
theorem ofNat_eq_round (hn : 0 < n) :
    UnpackedFloat.ofNat .binary64 n = UnpackedFloat.round .binary64 .positive n 0 := by
  have hcmp : compare (n : ℤ) 0 = .gt := by
    rw [Int.compare_eq_gt]
    exact_mod_cast hn
  unfold UnpackedFloat.ofNat UnpackedFloat.ofInt UnpackedFloat.normalize
  rw [hcmp]
  rfl

/-- A whole number below 53 bits is a double. -/
theorem unpack_toFloat_whole (hn : 0 < n) (hlt : n < 2 ^ 53) :
    n.toUInt64.toFloat.toModel.unpack
      = .finite .positive (wholeParts n).mantissa (wholeParts n).exponent (regular_wholeParts hn hlt).pos := by
  have hword : n.toUInt64.toNat = n := by
    show n % 2 ^ 64 = n
    exact Nat.mod_eq_of_lt (hlt.trans (by norm_num))
  show (Float.Model.pack (UnpackedFloat.ofNat .binary64 n.toUInt64.toNat)).unpack = _
  rw [hword, ofNat_eq_round hn, round_whole hn hlt]
  exact Binary.unpack_pack (regular_wholeParts hn hlt) .positive

theorem size_powersOfTen : Float.exactlyRepresentablePowersOfTen.size = 23 := rfl

/-- The table of powers of ten. -/
def powerOfTen (e : Fin 23) : Float :=
  have h : e.val < Float.exactlyRepresentablePowersOfTen.size := by
    rw [size_powersOfTen]
    exact e.isLt
  Float.exactlyRepresentablePowersOfTen[e.val]

/-- The powers of ten in the table are exact. -/
theorem powerOfTen_exact : ∀ e : Fin 23, (powerOfTen e).isFinite = true ∧
    (Binary.ofFloat (powerOfTen e)).negative = false ∧ -52 ≤ (Binary.ofFloat (powerOfTen e)).exponent ∧
    (Binary.ofFloat (powerOfTen e)).mantissa * 2 ^ ((Binary.ofFloat (powerOfTen e)).exponent + 52).toNat
      = 10 ^ e.val * 2 ^ 52 := by
  decide +kernel

/-- Each of the powers of ten up to the twenty-second is a double. -/
theorem unpack_powerOfTen (e : Fin 23) : ∃ (m : ℕ) (k : ℤ) (hm : 0 < m),
    (powerOfTen e).toModel.unpack = .finite .positive m k hm ∧ (m : ℚ) * 2 ^ k = 10 ^ e.val := by
  obtain ⟨hfinite, hsign, hlow, hvalue⟩ := powerOfTen_exact e
  generalize hp : Binary.ofFloat (powerOfTen e) = p at hsign hlow hvalue
  have hm : 0 < p.mantissa := by
    have hpos : 0 < p.mantissa * 2 ^ (p.exponent + 52).toNat := by
      rw [hvalue]
      positivity
    exact Nat.pos_of_mul_pos_right hpos
  refine ⟨p.mantissa, p.exponent, hm, ?_, ?_⟩
  · have hpositive : p.sign = .positive := by
      unfold Binary.sign
      rw [hsign]
      rfl
    rw [Binary.unpack_eq hfinite, hp, Binary.unpacked_of_pos hm, hpositive]
  · have hcast : (p.mantissa : ℚ) * 2 ^ (p.exponent + 52).toNat = 10 ^ e.val * 2 ^ 52 := by exact_mod_cast hvalue
    have hexp : ((p.exponent + 52).toNat : ℤ) = p.exponent + 52 := by omega
    rw [← zpow_natCast, hexp, zpow_add₀ two_ne_zero, ← mul_assoc] at hcast
    exact mul_right_cancel₀ (by positivity) hcast

/-- The power of ten of a decimal in scientific form. -/
def scale (s : Bool) (e : ℕ) : ℤ := if s then -e else e

/-- A short decimal with a small exponent is read by one product, or by one quotient of two doubles. -/
theorem ofScientific_small {e : ℕ} (h : n < 2 ^ 53 ∧ e ≤ 22) (s : Bool) :
    Float.ofScientific n s e
      = if s then n.toUInt64.toFloat / powerOfTen ⟨e, by omega⟩ else n.toUInt64.toFloat * powerOfTen ⟨e, by omega⟩ :=
  dif_pos h

/-- A long decimal, or one with a large exponent, is scaled and then rounded. -/
theorem ofScientific_large {e : ℕ} (h : ¬(n < 2 ^ 53 ∧ e ≤ 22)) (s : Bool) :
    Float.ofScientific n s e = .ofModel (.pack (UnpackedFloat.ofScientific .binary64 n (scale s e))) := by
  unfold scale
  cases s with
  | false => exact dif_neg h
  | true =>
    have hneg : Int.negOfNat e = -(e : ℤ) := Int.negOfNat_eq
    rw [if_pos rfl, ← hneg]
    exact dif_neg h

/-- **A decimal is read as the double that covers it.** -/
theorem ofScientific_eq (hn : 0 < n) (s : Bool) (e : ℕ) (hb : b.Regular)
    (hv : b.Covers (n * 10 ^ scale s e / 2 ^ b.exponent)) : Float.ofScientific n s e = hb.toFloat .positive := by
  by_cases hsmall : n < 2 ^ 53 ∧ e ≤ 22
  · -- both operands are exact, so that one rounding is all there is
    have hwhole := unpack_toFloat_whole hn hsmall.1
    have hregular := regular_wholeParts hn hsmall.1
    have hsize := size_wholeParts n
    unfold Binary.size at hsize
    obtain ⟨m, k, hm, hpower, hvalue⟩ := unpack_powerOfTen ⟨e, by omega⟩
    dsimp only at hvalue
    rw [ofScientific_small hsmall]
    cases s with
    | true =>
      have hquotient : (n : ℚ) * 10 ^ scale true e
          = (wholeParts n).mantissa / m * 2 ^ ((wholeParts n).exponent - k) := by
        rw [zpow_sub₀ two_ne_zero, div_mul_div_comm, hsize, hvalue]
        show (n : ℚ) * 10 ^ (-(e : ℤ)) = _
        rw [zpow_neg, zpow_natCast, div_eq_mul_inv]
      rw [hquotient] at hv
      show Float.ofModel (.pack (UnpackedFloat.div .binary64 n.toUInt64.toFloat.toModel.unpack
        (powerOfTen ⟨e, _⟩).toModel.unpack)) = _
      rw [hwhole, hpower, div_eq hregular.pos hm hb hv]
      rfl
    | false =>
      have hproduct : (n : ℚ) * 10 ^ scale false e
          = (wholeParts n).mantissa * m * 2 ^ ((wholeParts n).exponent + k) := by
        rw [zpow_add₀ two_ne_zero, mul_mul_mul_comm, hsize, hvalue]
        rfl
      have hlarge : 2 ^ 52 ≤ (wholeParts n).mantissa * m :=
        (full_wholeParts hn hsmall.1).trans (Nat.le_mul_of_pos_right _ hm)
      rw [hproduct] at hv
      show Float.ofModel (.pack (UnpackedFloat.mul .binary64 n.toUInt64.toFloat.toModel.unpack
        (powerOfTen ⟨e, _⟩).toModel.unpack)) = _
      rw [hwhole, hpower, mul_eq hregular.pos hm hlarge hb hv]
      rfl
  · rw [ofScientific_large hsmall, unpacked_ofScientific hn hb hv]
    rfl

end Rounding

/-! ## §4. Decimals -/

namespace Decimal

/-- The zero of each sign. -/
def zero (negative : Bool) : Float := if negative then -0.0 else 0.0

/-- Digits that are all zero stand for a zero, with the sign that they have. -/
theorem toFloat_zero {d : Decimal} (hd : d.digits = 0) : d.toFloat = zero d.negative := by
  unfold toFloat zero
  dsimp only
  rw [if_pos (Or.inl hd)]

/-- A number is below the power of ten of the count of its digits. -/
theorem lt_pow_countDigits (n : ℕ) : n < 10 ^ countDigits n :=
  (Nat.length_toDigits_le_iff (by norm_num) Nat.length_toDigits_pos).1 (le_refl _)

/-- A number is at least the power of ten of its first digit. -/
theorem pow_countDigits_le {n : ℕ} (hn : 0 < n) : 10 ^ (countDigits n - 1) ≤ n := by
  by_cases h : countDigits n = 1
  · rw [h]
    exact hn
  · have hpos : 0 < countDigits n := Nat.length_toDigits_pos
    by_contra hlt
    have hle : countDigits n ≤ countDigits n - 1 :=
      (Nat.length_toDigits_le_iff (by norm_num) (by omega)).2 (not_le.1 hlt)
    omega

variable {d : Decimal} {b : Binary}

/-- A covered decimal is not taken for zero. -/
theorem le_magnitude (hb : b.Regular) (hv : b.Covers (d.digits * 10 ^ d.exponent / 2 ^ b.exponent)) :
    -330 ≤ d.exponent + countDigits d.digits := by
  by_contra h
  have hdigits : (d.digits : ℚ) ≤ 10 ^ (countDigits d.digits : ℤ) := by
    have := (lt_pow_countDigits d.digits).le
    rw [zpow_natCast]
    exact_mod_cast this
  have hvalue : (d.digits : ℚ) * 10 ^ d.exponent ≤ 10 ^ (-331 : ℤ) := by
    calc (d.digits : ℚ) * 10 ^ d.exponent ≤ 10 ^ (countDigits d.digits : ℤ) * 10 ^ d.exponent :=
          mul_le_mul_of_nonneg_right hdigits (by positivity)
      _ = 10 ^ ((countDigits d.digits : ℤ) + d.exponent) := (zpow_add₀ (by norm_num) _ _).symm
      _ ≤ 10 ^ (-331 : ℤ) := zpow_le_zpow_right₀ (by norm_num) (by omega)
  have hrange : (10 : ℚ) ^ (-331 : ℤ) < 2 ^ (-1075 : ℤ) := by
    rw [zpow_neg, zpow_neg]
    refine inv_strictAnti₀ (by positivity) ?_
    have hpow : ((2 ^ 1075 : ℕ) : ℚ) < (10 ^ 331 : ℕ) := Nat.cast_lt.2 (by decide +kernel)
    simpa only [Nat.cast_pow, Nat.cast_ofNat, zpow_ofNat, -Nat.reducePow] using hpow
  exact absurd (Rounding.le_of_covers hb hv) (not_le.2 (hvalue.trans_lt hrange))

/-- A covered decimal is not taken for infinite. -/
theorem magnitude_le (hd : 0 < d.digits) (hb : b.Regular)
    (hv : b.Covers (d.digits * 10 ^ d.exponent / 2 ^ b.exponent)) : d.exponent + countDigits d.digits ≤ 310 := by
  by_contra h
  have hdigits : (10 : ℚ) ^ ((countDigits d.digits - 1 : ℕ) : ℤ) ≤ d.digits := by
    have := pow_countDigits_le hd
    rw [zpow_natCast]
    exact_mod_cast this
  have hvalue : (10 : ℚ) ^ (310 : ℤ) ≤ d.digits * 10 ^ d.exponent := by
    calc (10 : ℚ) ^ (310 : ℤ) ≤ 10 ^ (((countDigits d.digits - 1 : ℕ) : ℤ) + d.exponent) :=
          zpow_le_zpow_right₀ (by norm_num) (by omega)
      _ = 10 ^ ((countDigits d.digits - 1 : ℕ) : ℤ) * 10 ^ d.exponent := zpow_add₀ (by norm_num) _ _
      _ ≤ d.digits * 10 ^ d.exponent := mul_le_mul_of_nonneg_right hdigits (by positivity)
  have hrange : (2 : ℚ) ^ 1024 < 10 ^ (310 : ℤ) := by
    have hpow : ((2 ^ 1024 : ℕ) : ℚ) < (10 ^ 310 : ℕ) := Nat.cast_lt.2 (by decide +kernel)
    simpa only [Nat.cast_pow, Nat.cast_ofNat, zpow_ofNat, -Nat.reducePow] using hpow
  exact absurd (Rounding.lt_of_covers hb hv) (not_lt.2 (hrange.le.trans hvalue))

/-- **A decimal is read as the double that covers its value.** -/
theorem toFloat_eq (hd : 0 < d.digits) (hb : b.Regular)
    (hv : b.Covers (d.digits * 10 ^ d.exponent / 2 ^ b.exponent)) :
    d.toFloat = hb.toFloat (if d.negative then .negative else .positive) := by
  have hlow : ¬d.exponent + countDigits d.digits < -330 := not_lt.2 (le_magnitude hb hv)
  have hhigh : ¬310 < d.exponent + countDigits d.digits := not_lt.2 (magnitude_le hd hb hv)
  obtain ⟨negative, digits, exponent⟩ := d
  have hsign : (if negative then -hb.toFloat .positive else hb.toFloat .positive)
      = hb.toFloat (if negative then .negative else .positive) := by
    cases negative with
    | true => exact hb.neg_toFloat
    | false => rfl
  -- neither of the two short cuts is taken
  unfold toFloat
  dsimp only
  rw [if_neg (not_or.2 ⟨hd.ne', hlow⟩), if_neg hhigh, ← hsign]
  cases exponent with
  | ofNat e =>
    dsimp only
    rw [Rounding.ofScientific_eq hd false e hb hv]
  | negSucc e =>
    dsimp only
    rw [Rounding.ofScientific_eq hd true (e + 1) hb hv]

end Decimal

end HomeWidget
