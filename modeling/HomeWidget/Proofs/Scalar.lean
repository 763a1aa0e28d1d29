import HomeWidget.Scalar
import Mathlib.Algebra.Group.Int.Even
import Mathlib.Algebra.Order.Floor.Ring
import Mathlib.Data.Rat.Floor
import Mathlib.Tactic.Linarith
import Mathlib.Tactic.NormNum
import Mathlib.Tactic.Ring

/-!
# Scalars in the theory

Over the rationals every scalar is a number, and what is derived from the shared operations is what arithmetic calls
by the same name: the smaller and the larger of two, the nearest within bounds, the whole scalars next to one. Of any
scalars no more is said than which of two is taken.

Main results: `least_cases`, `least_eq_min`, `greatest_eq_max`, `toNat_clamp`, `round_eq`, `roundEven_eq`.
-/
namespace HomeWidget.Scalar

/-! ## §1. Any scalars -/

section Any

variable {α : Type} [Scalar α] (x y : α)

/-- A scalar is only kept as the smaller of two if it is a number and the other is not smaller. -/
theorem least_cases : least x y = y ∨ least x y = x ∧ x ≤ x ∧ ¬y < x := by
  by_cases h : y < x ∨ ¬x ≤ x
  · exact Or.inl (if_pos h)
  · rw [not_or, not_not] at h
    exact Or.inr ⟨if_neg (not_or.2 ⟨h.1, not_not.2 h.2⟩), h.2, h.1⟩

/-- A scalar is only kept as the larger of two if it is a number and the other is not larger. -/
theorem greatest_cases : greatest x y = y ∨ greatest x y = x ∧ x ≤ x ∧ ¬x < y := by
  by_cases h : x < y ∨ ¬x ≤ x
  · exact Or.inl (if_pos h)
  · rw [not_or, not_not] at h
    exact Or.inr ⟨if_neg (not_or.2 ⟨h.1, not_not.2 h.2⟩), h.2, h.1⟩

end Any

/-! ## §2. Numerals -/

/-- Constants are written as decimals; over the rationals they are these numbers. -/
theorem zero_eq : (0.0 : Rat) = 0 := by norm_num

theorem half_eq : (0.5 : Rat) = 1 / 2 := by norm_num

theorem one_eq : (1.0 : Rat) = 1 := by norm_num

theorem two_eq : (2.0 : Rat) = 2 := by norm_num

theorem twelve_eq : (12.0 : Rat) = 12 := by norm_num

/-! ## §3. Operations -/

/-- Over the rationals the lesser of two is their minimum. -/
@[simp]
theorem least_eq_min (a b : Rat) : least a b = min a b := by
  unfold least
  split
  next h =>
    rcases h with h | h
    · exact (min_eq_right h.le).symm
    · exact absurd le_rfl h
  next h => exact (min_eq_left (not_lt.1 fun hlt => h (Or.inl hlt))).symm

/-- Over the rationals the greater of two is their maximum. -/
@[simp]
theorem greatest_eq_max (a b : Rat) : greatest a b = max a b := by
  unfold greatest
  split
  next h =>
    rcases h with h | h
    · exact (max_eq_right h.le).symm
    · exact absurd le_rfl h
  next h => exact (max_eq_left (not_lt.1 fun hlt => h (Or.inl hlt))).symm

@[simp]
theorem abs_eq_abs (x : Rat) : Scalar.abs x = |x| := by
  unfold Scalar.abs
  split
  next h => exact (abs_of_neg (zero_eq ▸ h)).symm
  next h => exact (abs_of_nonneg (zero_eq ▸ not_lt.1 h)).symm

theorem isZero_iff {x : Rat} : isZero x = true ↔ x = 0 := by
  unfold isZero
  rw [zero_eq, decide_eq_true_eq]
  exact le_antisymm_iff.symm

/-- A value is held between two bounds. -/
@[simp]
theorem clamp_eq (low high x : Rat) : clamp low high x = min (max low x) high := by
  have hraised : (if x < low then low else x) = max low x := by
    split
    next h => exact (max_eq_left h.le).symm
    next h => exact (max_eq_right (not_lt.1 h)).symm
  unfold clamp
  rw [hraised]
  show (if high < max low x then high else max low x) = _
  split
  next h => exact (min_eq_right h.le).symm
  next h => exact (min_eq_left (not_lt.1 h)).symm

/-- A value is held between zero and one. -/
theorem clampUnit_eq (x : Rat) : clampUnit x = min (max 0 x) 1 := by
  unfold clampUnit
  rw [clamp_eq, zero_eq, one_eq]

/-- A value between zero and one is not changed. -/
theorem clampUnit_eq_self {x : Rat} (hlow : 0 ≤ x) (hhigh : x ≤ 1) : clampUnit x = x := by
  rw [clampUnit_eq, max_eq_right hlow, min_eq_left hhigh]

theorem floor_eq (x : Rat) : Scalar.floor x = (⌊x⌋ : Rat) := rfl

theorem ceil_eq (x : Rat) : Scalar.ceil x = (⌈x⌉ : Rat) := by
  unfold Scalar.ceil
  rw [floor_eq, Int.floor_neg, Int.cast_neg, neg_neg]

/-- A whole position as a count, within the bounds of an axis. -/
theorem toNat_clamp (limit : Nat) (k : Int) : toNat (clamp 0.0 (Scalar.ofNat limit) (k : Rat)) = min k.toNat limit := by
  have hzero : (0.0 : Rat) = ((0 : Int) : Rat) := zero_eq
  have hlimit : (Scalar.ofNat limit : Rat) = ((limit : Int) : Rat) := (Int.cast_natCast limit).symm
  rw [clamp_eq, hzero, hlimit, ← Int.cast_max, ← Int.cast_min]
  show (⌊((min (max 0 k) (limit : Int) : Int) : Rat)⌋).toNat = min k.toNat limit
  rw [Int.floor_intCast]
  omega

/-- The order in which rationals are added does not matter. -/
@[simp]
theorem sum_eq_sum (xs : List Rat) : Scalar.sum xs = xs.sum := by
  unfold Scalar.sum
  rw [zero_eq, List.sum_eq_foldl]

/-! ## §4. Rounding -/

/-- The nearest whole number, a half going away from zero. -/
def nearest (q : Rat) : Int := if q < 0 then -⌊-q + 1 / 2⌋ else ⌊q + 1 / 2⌋

/-- What is rounded up from a half on. -/
theorem floor_add_half (q : Rat) : ⌊q + 1 / 2⌋ = if 1 / 2 ≤ q - ⌊q⌋ then ⌊q⌋ + 1 else ⌊q⌋ := by
  have hlow := Int.floor_le q
  have hhigh := Int.lt_floor_add_one q
  split
  next h =>
    rw [Int.floor_eq_iff]
    push_cast
    constructor <;> linarith
  next h =>
    rw [Int.floor_eq_iff]
    constructor <;> linarith

/-- A rational is rounded to the nearest whole number, and a half away from zero. -/
theorem round_eq (q : Rat) : Scalar.round q = (nearest q : Rat) := by
  have hsize (r : Rat) :
      (if (0.5 : Rat) ≤ r - Scalar.floor r then Scalar.floor r + 1.0 else Scalar.floor r) = (⌊r + 1 / 2⌋ : Rat) := by
    rw [half_eq, one_eq, floor_eq, floor_add_half]
    split <;> push_cast <;> rfl
  unfold Scalar.round Scalar.onSize nearest
  dsimp only
  rw [hsize, hsize, zero_eq]
  split <;> push_cast <;> rfl

/-- The size of a number is rounded, and its sign is kept. -/
theorem nearest_of_neg {q : Rat} (h : q < 0) : nearest q = -nearest (-q) := by
  unfold nearest
  rw [if_pos h, if_neg (by linarith)]

/-- What is not negative lies within a half of the number that it is rounded to, and the lower end belongs to it. -/
theorem nearest_bounds {q : Rat} (h : 0 ≤ q) : nearest q - 1 / 2 ≤ q ∧ q < nearest q + 1 / 2 := by
  have hlow := Int.floor_le (q + 1 / 2)
  have hhigh := Int.lt_floor_add_one (q + 1 / 2)
  unfold nearest
  rw [if_neg (not_lt.2 h)]
  constructor <;> linarith

/-- **The nearest whole number is at most a half away**. -/
theorem abs_sub_nearest_le (q : Rat) : |q - nearest q| ≤ 1 / 2 := by
  rw [abs_le]
  rcases lt_or_ge q 0 with hneg | hpos
  · obtain ⟨hlow, hhigh⟩ := @nearest_bounds (-q) (by linarith)
    rw [nearest_of_neg hneg, Int.cast_neg]
    constructor <;> linarith
  · obtain ⟨hlow, hhigh⟩ := nearest_bounds hpos
    constructor <;> linarith

/-- If the nearest whole number is a half away, it is the one of the two that is farther from zero. -/
theorem abs_le_abs_nearest (q : Rat) (h : |q - nearest q| = 1 / 2) : |q| ≤ |(nearest q : Rat)| := by
  have hside := (abs_eq (by norm_num)).1 h
  rcases lt_or_ge q 0 with hneg | hpos
  · obtain ⟨hlow, hhigh⟩ := @nearest_bounds (-q) (by linarith)
    rw [nearest_of_neg hneg, Int.cast_neg] at hside ⊢
    rw [abs_of_neg hneg, abs_neg]
    refine le_trans ?_ (le_abs_self _)
    rcases hside with h | h <;> linarith
  · obtain ⟨hlow, hhigh⟩ := nearest_bounds hpos
    rw [abs_of_nonneg hpos]
    refine le_trans ?_ (le_abs_self _)
    rcases hside with h | h <;> linarith

/-- The whole number nearest to a size, a half going to the even neighbour. -/
def wholeEven (r : Rat) : Int := if 1 / 2 < r - ⌊r⌋ ∨ r - ⌊r⌋ = 1 / 2 ∧ ¬Even ⌊r⌋ then ⌊r⌋ + 1 else ⌊r⌋

/-- The nearest whole number, a half going to the even neighbour. -/
def nearestEven (q : Rat) : Int := if q < 0 then -wholeEven (-q) else wholeEven q

/-- A whole number is found even by halving it. -/
theorem isEven_iff (k : Int) : Scalar.isEven (k : Rat) = true ↔ Even k := by
  have hhalf : Scalar.floor ((k : Rat) / 2.0) = ((k / 2 : Int) : Rat) := by
    rw [two_eq, floor_eq]
    exact congrArg Int.cast (Rat.floor_intCast_div_natCast k 2)
  unfold Scalar.isEven
  dsimp only
  rw [hhalf, decide_eq_true_eq, ← Int.cast_add, Int.cast_le, Int.even_iff]
  omega

/-- With ties to the even number a rational is rounded to the nearest one too. -/
theorem roundEven_eq (q : Rat) : Scalar.roundEven q = (nearestEven q : Rat) := by
  have hsize (r : Rat) :
      (if (0.5 : Rat) < r - Scalar.floor r then Scalar.floor r + 1.0
        else if r - Scalar.floor r < 0.5 then Scalar.floor r
        else if Scalar.isEven (Scalar.floor r) then Scalar.floor r else Scalar.floor r + 1.0) = (wholeEven r : Rat) := by
    unfold wholeEven
    rw [half_eq, one_eq, floor_eq]
    rcases lt_trichotomy (r - ⌊r⌋) (1 / 2) with hless | htie | hmore
    · rw [if_neg hless.not_gt, if_pos hless, if_neg (by rintro (h | ⟨h, -⟩) <;> linarith)]
    · rw [if_neg htie.not_gt, if_neg htie.not_lt]
      by_cases heven : Even ⌊r⌋
      · rw [if_pos ((isEven_iff _).2 heven), if_neg (by rintro (h | ⟨-, h⟩) <;> [linarith; exact h heven])]
      · rw [if_neg (mt (isEven_iff _).1 heven), if_pos (Or.inr ⟨htie, heven⟩), Int.cast_add, Int.cast_one]
    · rw [if_pos hmore, if_pos (Or.inl hmore), Int.cast_add, Int.cast_one]
  unfold Scalar.roundEven Scalar.onSize nearestEven
  dsimp only
  rw [hsize, hsize, zero_eq]
  split <;> push_cast <;> rfl

/-- The number is at most a half away, and it is even if it is as far as that. -/
theorem wholeEven_bounds (r : Rat) : |r - wholeEven r| ≤ 1 / 2 ∧ (|r - wholeEven r| = 1 / 2 → Even (wholeEven r)) := by
  have hlow := Int.floor_le r
  have hhigh := Int.lt_floor_add_one r
  unfold wholeEven
  split
  next h =>
    have hpart : 1 / 2 ≤ r - ⌊r⌋ := by rcases h with h | ⟨h, -⟩ <;> linarith
    have hsize : |r - (⌊r⌋ + 1 : Int)| = 1 - (r - ⌊r⌋) := by
      push_cast
      rw [abs_of_nonpos (by linarith)]
      ring
    refine ⟨by linarith, fun htie => ?_⟩
    -- a half away from what is above is a half away from what is below, which is odd
    rcases h with h | ⟨-, hodd⟩
    · linarith
    · exact Int.even_add_one.2 hodd
  next h =>
    rw [not_or, not_lt, not_and, not_not] at h
    have hsize : |r - ⌊r⌋| = r - ⌊r⌋ := abs_of_nonneg (by linarith)
    exact ⟨hsize.le.trans h.1, fun htie => h.2 (hsize ▸ htie)⟩

/-- **The nearest whole number is at most a half away**, and it is even if it is just a half away. -/
theorem nearestEven_bounds (q : Rat) :
    |q - nearestEven q| ≤ 1 / 2 ∧ (|q - nearestEven q| = 1 / 2 → Even (nearestEven q)) := by
  unfold nearestEven
  split
  next hneg =>
    have hsize : |q - (-wholeEven (-q) : Int)| = |-q - wholeEven (-q)| := by
      rw [← abs_neg]
      congr 1
      push_cast
      ring
    rw [hsize, even_neg]
    exact wholeEven_bounds (-q)
  next => exact wholeEven_bounds q

/-- What is nearer to zero than a half is rounded to zero. -/
theorem roundEven_of_lt_half {q : Rat} (h : |q| < 1 / 2) : Scalar.roundEven q = 0 := by
  obtain ⟨hlow, hhigh⟩ := abs_lt.1 h
  obtain ⟨hbelow, habove⟩ := abs_le.1 (nearestEven_bounds q).1
  have hmore : (-1 : Rat) < nearestEven q := by linarith
  have hless : (nearestEven q : Rat) < 1 := by linarith
  have hzero : nearestEven q = 0 := by
    have hmore : -1 < nearestEven q := by exact_mod_cast hmore
    have hless : nearestEven q < 1 := by exact_mod_cast hless
    omega
  rw [roundEven_eq, hzero, Int.cast_zero]

end HomeWidget.Scalar
