import HomeWidget.Proofs.Number.Whole

/-!
# The values of doubles

A finite double is exactly one number, and doubles compare as their numbers do. The infinities lie beyond all of them,
and what is not a number compares with nothing.

Main results: `exactly_iff`, `compare_eq`, `isFinite_of_between`.
-/
namespace HomeWidget

open Float.Model UnpackedFloat

/-! ## §1. Values -/

/-- The value of parts, with its sign. -/
def Binary.value (b : Binary) : ℚ := if b.negative then -b.size else b.size

namespace Double

/-- The double is finite, and its value is `q`. -/
structure Exactly (x : Float) (q : ℚ) : Prop where
  finite : x.isFinite = true
  value : (Binary.ofFloat x).value = q

/-- A size with a sign. -/
def signed (s : Sign) (q : ℚ) : ℚ :=
  match s with
  | .positive => q
  | .negative => -q

/-- An unpacked double is zero or has the parts that rounding aims at, and its value is `q`. -/
inductive Holds : UnpackedFloat → ℚ → Prop
  | zero (s : Sign) : Holds (.zero s) 0
  | regular (s : Sign) {b : Binary} (hb : b.Regular) :
      Holds (.finite s b.mantissa b.exponent hb.pos) (signed s b.size)

variable {x y : Float} {u v : UnpackedFloat} {p q : ℚ}

/-- What has a value is finite. -/
theorem Holds.isFinite (h : Holds u q) : u.isFinite = true := by
  cases h <;> rfl

/-- Nothing has two values. -/
theorem Holds.unique (hp : Holds u p) (hq : Holds u q) : p = q := by
  cases hp with
  | zero s =>
    cases hq
    rfl
  | regular s hb =>
    obtain ⟨negative, m, e⟩ := ‹Binary›
    generalize hu : UnpackedFloat.finite s _ _ hb.pos = u at hq
    cases hq with
    | zero t => cases hu
    | regular t hc =>
      obtain ⟨rfl, hm, he⟩ := UnpackedFloat.finite.inj hu
      unfold Binary.size
      rw [hm, he]

/-- A regular double, taken apart, has the value of its mantissa and its exponent. -/
theorem holds_unpacked {b : Binary} (hb : b.mantissa ≠ 0 → b.Regular) : Holds b.unpacked b.value := by
  have hvalue : b.value = signed b.sign b.size := by
    unfold Binary.value Binary.sign
    cases b.negative <;> rfl
  by_cases hm : b.mantissa = 0
  · have hsize : b.size = 0 := by
      unfold Binary.size
      rw [hm, Nat.cast_zero, zero_mul]
    have hzero : b.value = 0 := by
      rw [hvalue, hsize]
      cases b.sign with
      | positive => rfl
      | negative => exact neg_zero
    rw [Binary.unpacked_zero hm, hzero]
    exact .zero _
  · rw [Binary.unpacked_of_pos (hb hm).pos, hvalue]
    exact .regular _ (hb hm)

/-- **A double has the value of what it unpacks to.** -/
theorem exactly_iff : Exactly x q ↔ Holds x.toModel.unpack q := by
  have hvalue (hx : x.isFinite = true) : Holds x.toModel.unpack (Binary.ofFloat x).value := by
    rw [Binary.unpack_eq hx]
    exact holds_unpacked (Binary.regular_ofFloat hx)
  constructor
  · rintro ⟨hfinite, rfl⟩
    exact hvalue hfinite
  · intro h
    exact ⟨h.isFinite, (hvalue h.isFinite).unique h⟩

/-- A double is exactly one number. -/
theorem Exactly.unique (hp : Exactly x p) (hq : Exactly x q) : p = q := hp.value.symm.trans hq.value

/-! ## §2. Order -/

/-- A regular double is no zero. -/
theorem size_pos {b : Binary} (hb : b.Regular) : 0 < b.size :=
  mul_pos (by exact_mod_cast hb.pos) (zpow_pos two_pos _)

/-- Of two doubles that are not zero the one with the smaller exponent is smaller. -/
theorem size_lt_of_exponent {b c : Binary} (hb : b.Regular) (hc : c.Regular) (h : b.exponent < c.exponent) :
    b.size < c.size := by
  have hfull : 2 ^ 52 ≤ c.mantissa := hc.full.resolve_left (by have := hb.low; omega)
  calc b.size < 2 ^ 53 * 2 ^ b.exponent :=
        mul_lt_mul_of_pos_right (by exact_mod_cast hb.lt) (zpow_pos two_pos _)
    _ = 2 ^ 52 * 2 ^ (b.exponent + 1) := by
        rw [zpow_add_one₀ two_ne_zero]
        ring
    _ ≤ 2 ^ 52 * 2 ^ c.exponent :=
        mul_le_mul_of_nonneg_left (zpow_le_zpow_right₀ one_le_two h) (by positivity)
    _ ≤ c.size := mul_le_mul_of_nonneg_right (by exact_mod_cast hfull) (zpow_nonneg zero_le_two _)

/-- Sizes compare as exponents do first and mantissas second. -/
theorem compare_size {b c : Binary} (hb : b.Regular) (hc : c.Regular) :
    (compare b.exponent c.exponent).then (compare b.mantissa c.mantissa) = compare b.size c.size := by
  rcases lt_trichotomy b.exponent c.exponent with h | h | h
  · rw [compare_lt_iff_lt.2 h, compare_lt_iff_lt.2 (size_lt_of_exponent hb hc h)]
    rfl
  · rw [compare_eq_iff_eq.2 h]
    unfold Binary.size
    rw [h]
    show compare b.mantissa c.mantissa = _
    have hplace : (0 : ℚ) < 2 ^ c.exponent := zpow_pos two_pos _
    rcases lt_trichotomy b.mantissa c.mantissa with hm | hm | hm
    · rw [compare_lt_iff_lt.2 hm, compare_lt_iff_lt.2 (mul_lt_mul_of_pos_right (by exact_mod_cast hm) hplace)]
    · rw [compare_eq_iff_eq.2 hm, hm, compare_eq_iff_eq.2 rfl]
    · rw [compare_gt_iff_gt.2 hm, compare_gt_iff_gt.2 (mul_lt_mul_of_pos_right (by exact_mod_cast hm) hplace)]
  · rw [compare_gt_iff_gt.2 h, compare_gt_iff_gt.2 (size_lt_of_exponent hc hb h)]
    rfl

theorem compare_neg (p q : ℚ) : compare (-p) (-q) = (compare p q).swap := by
  rcases lt_trichotomy p q with h | h | h
  · rw [compare_lt_iff_lt.2 h, compare_gt_iff_gt.2 (neg_lt_neg h)]
    rfl
  · rw [compare_eq_iff_eq.2 h, compare_eq_iff_eq.2 (congrArg Neg.neg h)]
    rfl
  · rw [compare_gt_iff_gt.2 h, compare_lt_iff_lt.2 (neg_lt_neg h)]
    rfl

/-- **Finite doubles compare as their values do.** -/
theorem compare_eq (hu : Holds u p) (hv : Holds v q) : u.compare v = some (compare p q) := by
  cases hu with
  | zero s =>
    cases hv with
    | zero t =>
      rw [compare_eq_iff_eq.2 rfl]
      rfl
    | regular t hc =>
      have hpos := size_pos hc
      cases t with
      | positive =>
        rw [signed, compare_lt_iff_lt.2 hpos]
        rfl
      | negative =>
        rw [signed, compare_gt_iff_gt.2 (neg_neg_of_pos hpos)]
        rfl
  | regular s hb =>
    have hposb := size_pos hb
    cases hv with
    | zero t =>
      cases s with
      | positive =>
        rw [signed, compare_gt_iff_gt.2 hposb]
        rfl
      | negative =>
        rw [signed, compare_lt_iff_lt.2 (neg_neg_of_pos hposb)]
        rfl
    | regular t hc =>
      have hposc := size_pos hc
      have hsize := compare_size hb hc
      -- doubles of the same sign compare by their sizes, below zero the other way round
      cases s <;> cases t <;> unfold signed <;> dsimp only
      case positive.positive => exact congrArg some hsize
      case positive.negative =>
        rw [compare_gt_iff_gt.2 ((neg_neg_of_pos hposc).trans hposb)]
        rfl
      case negative.positive =>
        rw [compare_lt_iff_lt.2 ((neg_neg_of_pos hposb).trans hposc)]
        rfl
      case negative.negative =>
        rw [compare_neg, ← hsize]
        rfl

/-- Doubles are compared as what they are taken apart into. -/
theorem lt_def (x y : Float) : x < y ↔ x.toModel.unpack.compare y.toModel.unpack = some .lt :=
  (decide_eq_true_iff (p := x.toModel < y.toModel)).trans beq_iff_eq

theorem le_def (x y : Float) :
    x ≤ y ↔ ((x.toModel.unpack.compare y.toModel.unpack).any fun o => o.isLE) = true :=
  decide_eq_true_iff (p := x.toModel ≤ y.toModel)

/-- **Doubles that are exact are compared as the numbers are.** -/
theorem lt_iff (hx : Exactly x p) (hy : Exactly y q) : x < y ↔ p < q := by
  rw [lt_def, compare_eq (exactly_iff.1 hx) (exactly_iff.1 hy), Option.some.injEq, compare_lt_iff_lt]

theorem le_iff (hx : Exactly x p) (hy : Exactly y q) : x ≤ y ↔ p ≤ q := by
  rw [le_def, compare_eq (exactly_iff.1 hx) (exactly_iff.1 hy), Option.any_some, Ordering.isLE_iff_ne_gt]
  exact compare_le_iff_le

/-- **What is a number and between two finite doubles is finite.** -/
theorem isFinite_of_between {low high : Float} (hlow : low.isFinite = true) (hhigh : high.isFinite = true)
    (hnumber : x ≤ x) (hnotlow : ¬x < low) (hnothigh : ¬high < x) : x.isFinite = true := by
  rw [lt_def] at hnotlow hnothigh
  rw [le_def] at hnumber
  show x.toModel.unpack.isFinite = true
  change low.toModel.unpack.isFinite = true at hlow
  change high.toModel.unpack.isFinite = true at hhigh
  generalize x.toModel.unpack = u at *
  generalize low.toModel.unpack = l at *
  generalize high.toModel.unpack = h at *
  cases u with
  | zero s => rfl
  | finite s m e hm => rfl
  | notANumber => cases hnumber
  | infinity s =>
    -- each infinity lies beyond all finite doubles
    cases s with
    | positive =>
      cases h with
      | infinity t => cases hhigh
      | notANumber => cases hhigh
      | zero t => exact absurd rfl hnothigh
      | finite t m e hm => exact absurd rfl hnothigh
    | negative =>
      cases l with
      | infinity t => cases hlow
      | notANumber => cases hlow
      | zero t => exact absurd rfl hnotlow
      | finite t m e hm => exact absurd rfl hnotlow

end Double
end HomeWidget
