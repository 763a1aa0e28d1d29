import Mathlib.Algebra.Order.Archimedean.Real.Basic
import Mathlib.Analysis.SpecialFunctions.Trigonometric.Basic
import Mathlib.Tactic.IntervalCases
import Mathlib.Tactic.Linarith
import Mathlib.Tactic.NormNum
import Mathlib.Tactic.Ring
import HomeWidget.Paint.Gradient

/-!
# Where gradients start and end

The arithmetic here is that of the reals, since tangents are seldom rational. Of the tangent no more is used than that
it grows from `0` and stays below `1` within a slot of 45 degrees.

A slot takes the point along one half of a side. Hence all the formulas of the slots are one: the point at an angle is
reached from the middle of the bottom edge by walking clockwise along the edge, as many half sides as there are whole
slots in the angle, and a part of one more that the tangent tells. Turning the square by a quarter is walking two half
sides, and distinct angles below a whole turn are distinct lengths of the way.

Main results: `normalize_eq`, `edgeAt_add_two`, `edgeAt_injective`, `boundaryPoint_slot`, `ray_add_right`,
`points_turn`.
-/
namespace HomeWidget

open Scalar

/-! ## §1. The reals as scalars -/

noncomputable instance : Scalar ℝ where
  decidableLT := inferInstance
  decidableLE := inferInstance
  ofNat n := n
  isFinite _ := true
  floor x := (⌊x⌋ : ℝ)
  toNat x := ⌊x⌋.toNat
  remainder x y :=
    let q := x / y
    x - y * (if q < 0 then -(⌊-q⌋ : ℝ) else (⌊q⌋ : ℝ))

/-- The remainder of a quotient that is not negative is taken downwards. -/
theorem remainder_of_nonneg {x y : ℝ} (h : 0 ≤ x / y) : remainder x y = x - y * ⌊x / y⌋ := by
  show x - y * (if x / y < 0 then -(⌊-(x / y)⌋ : ℝ) else (⌊x / y⌋ : ℝ)) = _
  rw [if_neg (not_lt.2 h)]

/-- The remainder of a negative quotient is taken towards zero. -/
theorem remainder_of_neg {x y : ℝ} (h : x / y < 0) : remainder x y = x + y * ⌊-(x / y)⌋ := by
  show x - y * (if x / y < 0 then -(⌊-(x / y)⌋ : ℝ) else (⌊x / y⌋ : ℝ)) = _
  rw [if_pos h]
  ring

namespace UnitPoint

/-- On the boundary: in the unit square, and on one of its sides. -/
theorem onBoundary_zero_iff {p : UnitPoint ℝ} : p.onBoundary 0 = true
    ↔ ((0 ≤ p.x ∧ p.x ≤ 1) ∧ 0 ≤ p.y ∧ p.y ≤ 1) ∧ ((p.x = 0 ∨ p.x = 1) ∨ p.y = 0 ∨ p.y = 1) := by
  have habs (t : ℝ) : Scalar.abs t ≤ 0 ↔ t = 0 := by
    have heq : Scalar.abs t = |t| := by
      unfold Scalar.abs
      rw [show (0.0 : ℝ) = 0 by norm_num]
      split
      next h => exact (abs_of_neg h).symm
      next h => exact (abs_of_nonneg (not_lt.1 h)).symm
    rw [heq]
    exact abs_nonpos_iff
  have hone : (1.0 : ℝ) = 1 := by norm_num
  unfold onBoundary
  simp only [Bool.and_eq_true, Bool.or_eq_true, decide_eq_true_eq, habs, hone, neg_zero, add_zero, sub_eq_zero]

end UnitPoint

namespace Gradient

/-! ## §2. Angles up to whole turns -/

/-- **An angle up to whole turns** is the one in `[0, 360)`, whatever its sign. -/
theorem normalize_eq {a b : ℝ} (k : ℤ) (hb : 0 ≤ b ∧ b < 360) (h : a = b + 360 * k) : normalize a = b := by
  obtain ⟨hlow, hhigh⟩ := hb
  have hquotient : a / 360 = b / 360 + k := by
    rw [h]
    ring
  have hturn : (360.0 : ℝ) = 360 := by norm_num
  have hzero : (0.0 : ℝ) = 0 := by norm_num
  have hremainder : (if remainder a 360 < 0 then remainder a 360 + 360 else remainder a 360) = b := by
    rcases lt_or_ge (a / 360) 0 with hneg | hpos
    · rw [remainder_of_neg hneg]
      rcases hlow.eq_or_lt with rfl | hlow
      · -- a whole number of turns backwards leaves nothing
        have hfloor : ⌊-(a / 360)⌋ = -k := by
          rw [hquotient, Int.floor_eq_iff]
          push_cast
          constructor <;> linarith
        have hnothing : a + 360 * ⌊-(a / 360)⌋ = 0 := by
          rw [hfloor, h]
          push_cast
          ring
        rw [hnothing, if_neg (lt_irrefl 0)]
      · have hfloor : ⌊-(a / 360)⌋ = -k - 1 := by
          rw [hquotient, Int.floor_eq_iff]
          push_cast
          constructor <;> linarith
        have hpart : a + 360 * ⌊-(a / 360)⌋ = b - 360 := by
          rw [hfloor, h]
          push_cast
          ring
        rw [hpart, if_pos (by linarith), sub_add_cancel]
    · have hfloor : ⌊a / 360⌋ = k := by
        rw [hquotient, Int.floor_eq_iff]
        constructor <;> linarith
      have hpart : a - 360 * ⌊a / 360⌋ = b := by
        rw [hfloor, h]
        ring
      rw [remainder_of_nonneg hpos, hpart, if_neg (not_lt.2 hlow)]
  show (if (360.0 : ℝ) ≤ (if remainder a 360.0 < 0.0 then remainder a 360.0 + 360.0 else remainder a 360.0) then 0.0
    else if remainder a 360.0 < 0.0 then remainder a 360.0 + 360.0 else remainder a 360.0) = b
  rw [hturn, hzero, hremainder, if_neg (not_le.2 hhigh)]

/-- An angle differs from its normal form by whole turns. -/
theorem exists_normalize (a : ℝ) :
    ∃ k : ℤ, (0 ≤ (normalize a : ℝ) ∧ (normalize a : ℝ) < 360) ∧ a = normalize a + 360 * k := by
  have hlow := Int.floor_le (a / 360)
  have hhigh := Int.lt_floor_add_one (a / 360)
  have hpart : 0 ≤ a - 360 * ⌊a / 360⌋ ∧ a - 360 * ⌊a / 360⌋ < 360 := ⟨by linarith, by linarith⟩
  refine ⟨⌊a / 360⌋, ?_⟩
  rw [normalize_eq ⌊a / 360⌋ hpart (by ring)]
  exact ⟨hpart, by ring⟩

/-- Whole slots of 45 degrees, eight of which are a turn, and a part of one. -/
theorem normalize_slots (n : ℤ) {r : ℝ} (hr : 0 ≤ r ∧ r < 45) :
    normalize (45 * n + r) = 45 * ((n % 8 : ℤ) : ℝ) + r := by
  have hlow : (0 : ℝ) ≤ ((n % 8 : ℤ) : ℝ) := by exact_mod_cast Int.emod_nonneg n (by decide)
  have hhigh : ((n % 8 : ℤ) : ℝ) ≤ 7 := by exact_mod_cast (show n % 8 ≤ 7 by omega)
  refine normalize_eq (n / 8) ⟨by linarith, by linarith⟩ ?_
  have hslots : (n : ℝ) = ((n % 8 : ℤ) : ℝ) + 8 * ((n / 8 : ℤ) : ℝ) := by
    exact_mod_cast (Int.emod_add_mul_ediv n 8).symm
  rw [hslots]
  ring

/-- Every angle is so many slots and a part of one. -/
theorem exists_slots (a : ℝ) : ∃ (n : ℤ) (r : ℝ), (0 ≤ r ∧ r < 45) ∧ a = 45 * n + r := by
  have hlow := Int.floor_le (a / 45)
  have hhigh := Int.lt_floor_add_one (a / 45)
  exact ⟨⌊a / 45⌋, a - 45 * ⌊a / 45⌋, ⟨by linarith, by linarith⟩, by ring⟩

/-! ## §3. Along the edge -/

/-- The point of the edge `u` half sides clockwise from the middle of the bottom edge, for less than eight of them. -/
noncomputable def edgeAt (u : ℝ) : UnitPoint ℝ :=
  if u < 1 then ⟨(1 - u) / 2, 1⟩
  else if u < 3 then ⟨0, (3 - u) / 2⟩
  else if u < 5 then ⟨(u - 3) / 2, 0⟩
  else if u < 7 then ⟨1, (u - 5) / 2⟩
  else ⟨(9 - u) / 2, 1⟩

section Sides

variable {u v : ℝ}

/-- The first slot is the left half of the bottom. -/
theorem edgeAt_start (h : u < 1) : edgeAt u = ⟨(1 - u) / 2, 1⟩ := if_pos h

/-- The second slots are the left side, upwards. -/
theorem edgeAt_left (h : 1 ≤ u ∧ u < 3) : edgeAt u = ⟨0, (3 - u) / 2⟩ := by
  unfold edgeAt
  rw [if_neg (not_lt.2 h.1), if_pos h.2]

/-- The slots of the top lead to the right. -/
theorem edgeAt_top (h : 3 ≤ u ∧ u < 5) : edgeAt u = ⟨(u - 3) / 2, 0⟩ := by
  unfold edgeAt
  rw [if_neg (by linarith), if_neg (not_lt.2 h.1), if_pos h.2]

/-- The slots of the right side lead downwards. -/
theorem edgeAt_right (h : 5 ≤ u ∧ u < 7) : edgeAt u = ⟨1, (u - 5) / 2⟩ := by
  unfold edgeAt
  rw [if_neg (by linarith), if_neg (by linarith), if_neg (not_lt.2 h.1), if_pos h.2]

/-- The last slot is the right half of the bottom. -/
theorem edgeAt_end (h : 7 ≤ u) : edgeAt u = ⟨(9 - u) / 2, 1⟩ := by
  unfold edgeAt
  rw [if_neg (by linarith), if_neg (by linarith), if_neg (by linarith), if_neg (not_lt.2 h)]

/-- A way of less than eight half sides ends on one of the sides. -/
theorem sides (u : ℝ) : u < 1 ∨ (1 ≤ u ∧ u < 3) ∨ (3 ≤ u ∧ u < 5) ∨ (5 ≤ u ∧ u < 7) ∨ 7 ≤ u := by
  grind

/-- **A point of the edge tells the way to it**, by the side that it is on; a corner is on the later of its sides. -/
theorem edgeAt_cases (h : 0 ≤ u ∧ u < 8) {p : UnitPoint ℝ} (hp : edgeAt u = p) :
    (p.y = 1 ∧ (0 < p.x ∧ p.x ≤ 1 / 2) ∧ u = 1 - 2 * p.x) ∨ (p.x = 0 ∧ (0 < p.y ∧ p.y ≤ 1) ∧ u = 3 - 2 * p.y)
      ∨ (p.y = 0 ∧ (0 ≤ p.x ∧ p.x < 1) ∧ u = 3 + 2 * p.x) ∨ (p.x = 1 ∧ (0 ≤ p.y ∧ p.y < 1) ∧ u = 5 + 2 * p.y)
      ∨ (p.y = 1 ∧ (1 / 2 < p.x ∧ p.x ≤ 1) ∧ u = 9 - 2 * p.x) := by
  obtain ⟨hlow, hhigh⟩ := h
  subst hp
  rcases sides u with h | h | h | h | h
  · rw [edgeAt_start h]
    exact Or.inl ⟨rfl, ⟨by linarith, by linarith⟩, by ring⟩
  · rw [edgeAt_left h]
    exact Or.inr (Or.inl ⟨rfl, ⟨by linarith, by linarith⟩, by ring⟩)
  · rw [edgeAt_top h]
    exact Or.inr (Or.inr (Or.inl ⟨rfl, ⟨by linarith, by linarith⟩, by ring⟩))
  · rw [edgeAt_right h]
    exact Or.inr (Or.inr (Or.inr (Or.inl ⟨rfl, ⟨by linarith, by linarith⟩, by ring⟩)))
  · rw [edgeAt_end h]
    exact Or.inr (Or.inr (Or.inr (Or.inr ⟨rfl, ⟨by linarith, by linarith⟩, by ring⟩)))

/-- Every slot is on the boundary. -/
theorem edgeAt_onBoundary (h : 0 ≤ u ∧ u < 8) : (edgeAt u).onBoundary 0 = true := by
  rw [UnitPoint.onBoundary_zero_iff]
  generalize hp : edgeAt u = p
  rcases edgeAt_cases h hp with ⟨hy, hx, -⟩ | ⟨hx, hy, -⟩ | ⟨hy, hx, -⟩ | ⟨hx, hy, -⟩ | ⟨hy, hx, -⟩
  · exact ⟨⟨⟨by linarith, by linarith⟩, by linarith, by linarith⟩, Or.inr (Or.inr hy)⟩
  · exact ⟨⟨⟨by linarith, by linarith⟩, by linarith, by linarith⟩, Or.inl (Or.inl hx)⟩
  · exact ⟨⟨⟨by linarith, by linarith⟩, by linarith, by linarith⟩, Or.inr (Or.inl hy)⟩
  · exact ⟨⟨⟨by linarith, by linarith⟩, by linarith, by linarith⟩, Or.inl (Or.inr hx)⟩
  · exact ⟨⟨⟨by linarith, by linarith⟩, by linarith, by linarith⟩, Or.inr (Or.inr hy)⟩

/-- **Different ways lead to different points.** -/
theorem edgeAt_injective (hu : 0 ≤ u ∧ u < 8) (hv : 0 ≤ v ∧ v < 8) (h : edgeAt u = edgeAt v) : u = v := by
  -- the side is the same for both, and so is the way along it
  rcases edgeAt_cases hu h with ⟨_, _, _⟩ | ⟨_, _, _⟩ | ⟨_, _, _⟩ | ⟨_, _, _⟩ | ⟨_, _, _⟩ <;>
    rcases edgeAt_cases hv rfl with ⟨_, _, _⟩ | ⟨_, _, _⟩ | ⟨_, _, _⟩ | ⟨_, _, _⟩ | ⟨_, _, _⟩ <;>
    linarith

/-- The point after a quarter turn of the square, clockwise about its middle. -/
def quarterTurn (p : UnitPoint ℝ) : UnitPoint ℝ := ⟨1 - p.y, p.x⟩

/-- **A quarter turn is a walk of two half sides**. -/
theorem edgeAt_add_two (h : 0 ≤ u ∧ u < 6) : edgeAt (u + 2) = quarterTurn (edgeAt u) := by
  rcases sides u with hu | hu | hu | hu | hu
  · rw [edgeAt_start hu, edgeAt_left ⟨by linarith, by linarith⟩]
    refine congrArg₂ UnitPoint.mk ?_ ?_ <;> ring
  · rw [edgeAt_left hu, edgeAt_top ⟨by linarith, by linarith⟩]
    refine congrArg₂ UnitPoint.mk ?_ ?_ <;> ring
  · rw [edgeAt_top hu, edgeAt_right ⟨by linarith, by linarith⟩]
    refine congrArg₂ UnitPoint.mk ?_ ?_ <;> ring
  · rw [edgeAt_right hu, edgeAt_end (by linarith)]
    refine congrArg₂ UnitPoint.mk ?_ ?_ <;> ring
  · linarith

/-- At the end of the way a quarter turn leads past the start. -/
theorem edgeAt_sub_six (h : 6 ≤ u ∧ u < 8) : edgeAt (u - 6) = quarterTurn (edgeAt u) := by
  rcases lt_or_ge u 7 with hu | hu
  · rw [edgeAt_right ⟨by linarith, hu⟩, edgeAt_start (by linarith)]
    refine congrArg₂ UnitPoint.mk ?_ ?_ <;> ring
  · rw [edgeAt_end hu, edgeAt_left ⟨by linarith, by linarith⟩]
    refine congrArg₂ UnitPoint.mk ?_ ?_ <;> ring

end Sides

/-! ## §4. Slots -/

/-- What the tangent has to be like within a slot. -/
structure TangentLike (tangent : ℝ → ℝ) : Prop where
  mono : StrictMonoOn tangent (Set.Ico 0 45)
  zero : tangent 0 = 0
  lt_one : ∀ r ∈ Set.Ico (0 : ℝ) 45, tangent r < 1

variable {T : ℝ → ℝ}

/-- Up to an eighth of a turn a tangent is between zero and one. -/
theorem TangentLike.bounds (hT : TangentLike T) {r : ℝ} (hr : 0 ≤ r ∧ r < 45) : 0 ≤ T r ∧ T r < 1 := by
  refine ⟨?_, hT.lt_one r hr⟩
  rw [← hT.zero]
  exact hT.mono.monotoneOn ⟨le_rfl, by norm_num⟩ hr hr.1

/-- The slot that an angle lies in, and how far beyond its start. -/
theorem slot_and_offset {k : ℤ} (hk : 0 ≤ k) {r : ℝ} (hr : 0 ≤ r ∧ r < 45) :
    toNat (floor ((45 * k + r) / 45)) = k.toNat ∧ remainder (45 * k + r) 45 = r := by
  obtain ⟨hlow, hhigh⟩ := hr
  have hcast : (0 : ℝ) ≤ k := by exact_mod_cast hk
  have hfloor : ⌊(45 * k + r) / 45⌋ = k := by
    rw [Int.floor_eq_iff]
    constructor <;> linarith
  constructor
  · show ⌊((⌊(45 * k + r) / 45⌋ : ℤ) : ℝ)⌋.toNat = k.toNat
    rw [hfloor, Int.floor_intCast]
  · rw [remainder_of_nonneg (by linarith), hfloor]
    ring

/-- **The formulas of the eight slots are one**: the point is reached by as many half sides, and a part of one more. -/
theorem boundaryPoint_slot (hT : TangentLike T) {k : ℤ} (hk : 0 ≤ k ∧ k < 8) {r : ℝ} (hr : 0 ≤ r ∧ r < 45) :
    boundaryPoint T (45 * k + r) = edgeAt (k + T r) := by
  obtain ⟨hlow, hhigh⟩ := hT.bounds hr
  obtain ⟨hslot, hoffset⟩ := slot_and_offset hk.1 hr
  have hwidth : (45.0 : ℝ) = 45 := by norm_num
  have hone : (1.0 : ℝ) = 1 := by norm_num
  have htwo : (2.0 : ℝ) = 2 := by norm_num
  unfold boundaryPoint
  rw [hwidth, hoffset, hslot, hone, htwo]
  -- one formula after the other, on the side that it is about
  obtain ⟨hk0, hk8⟩ := hk
  interval_cases k <;> push_cast
  · show (⟨(-T r + 1) / 2, (1 + 1) / 2⟩ : UnitPoint ℝ) = _
    rw [edgeAt_start (by linarith)]
    refine congrArg₂ UnitPoint.mk ?_ ?_ <;> ring
  · show (⟨(-1 + 1) / 2, ((1 - T r) + 1) / 2⟩ : UnitPoint ℝ) = _
    rw [edgeAt_left ⟨by linarith, by linarith⟩]
    refine congrArg₂ UnitPoint.mk ?_ ?_ <;> ring
  · show (⟨(-1 + 1) / 2, (-T r + 1) / 2⟩ : UnitPoint ℝ) = _
    rw [edgeAt_left ⟨by linarith, by linarith⟩]
    refine congrArg₂ UnitPoint.mk ?_ ?_ <;> ring
  · show (⟨(-(1 - T r) + 1) / 2, (-1 + 1) / 2⟩ : UnitPoint ℝ) = _
    rw [edgeAt_top ⟨by linarith, by linarith⟩]
    refine congrArg₂ UnitPoint.mk ?_ ?_ <;> ring
  · show (⟨(-(-T r) + 1) / 2, (-1 + 1) / 2⟩ : UnitPoint ℝ) = _
    rw [edgeAt_top ⟨by linarith, by linarith⟩]
    refine congrArg₂ UnitPoint.mk ?_ ?_ <;> ring
  · show (⟨(-(-1) + 1) / 2, ((-1 + T r) + 1) / 2⟩ : UnitPoint ℝ) = _
    rw [edgeAt_right ⟨by linarith, by linarith⟩]
    refine congrArg₂ UnitPoint.mk ?_ ?_ <;> ring
  · show (⟨(-(-1) + 1) / 2, (T r + 1) / 2⟩ : UnitPoint ℝ) = _
    rw [edgeAt_right ⟨by linarith, by linarith⟩]
    refine congrArg₂ UnitPoint.mk ?_ ?_ <;> ring
  · show (⟨(-(-1 + T r) + 1) / 2, (1 + 1) / 2⟩ : UnitPoint ℝ) = _
    rw [edgeAt_end (by linarith)]
    refine congrArg₂ UnitPoint.mk ?_ ?_ <;> ring

/-! ## §5. Rays -/

/-- Where the ray from the middle at an angle meets the edge. -/
noncomputable def ray (tangent : ℝ → ℝ) (degrees : ℝ) : UnitPoint ℝ := boundaryPoint tangent (normalize degrees)

/-- An angle is a number of eighths of a turn and a rest; the slot is found from the number, and the place in it from
the tangent of the rest. -/
theorem ray_slots (hT : TangentLike T) (n : ℤ) {r : ℝ} (hr : 0 ≤ r ∧ r < 45) :
    ray T (45 * n + r) = edgeAt (((n % 8 : ℤ) : ℝ) + T r) := by
  unfold ray
  rw [normalize_slots n hr, boundaryPoint_slot hT ⟨Int.emod_nonneg n (by decide), Int.emod_lt_of_pos n (by decide)⟩ hr]

/-- The way to a ray is shorter than a whole turn. -/
theorem slots_bounds (hT : TangentLike T) (n : ℤ) {r : ℝ} (hr : 0 ≤ r ∧ r < 45) :
    0 ≤ ((n % 8 : ℤ) : ℝ) + T r ∧ ((n % 8 : ℤ) : ℝ) + T r < 8 := by
  obtain ⟨hlow, hhigh⟩ := hT.bounds hr
  have hfirst : (0 : ℝ) ≤ ((n % 8 : ℤ) : ℝ) := by exact_mod_cast Int.emod_nonneg n (by decide)
  have hlast : ((n % 8 : ℤ) : ℝ) ≤ 7 := by exact_mod_cast (show n % 8 ≤ 7 by omega)
  constructor <;> linarith

/-- **A ray ends on the boundary**, whatever its angle. -/
theorem ray_onBoundary (hT : TangentLike T) (a : ℝ) : (ray T a).onBoundary 0 = true := by
  obtain ⟨n, r, hr, rfl⟩ := exists_slots a
  rw [ray_slots hT n hr]
  exact edgeAt_onBoundary (slots_bounds hT n hr)

/-- After a whole turn it ends where it did. -/
theorem ray_add_turn (hT : TangentLike T) (a : ℝ) : ray T (a + 360) = ray T a := by
  obtain ⟨n, r, hr, rfl⟩ := exists_slots a
  have hslots : 45 * (n : ℝ) + r + 360 = 45 * ((n + 8 : ℤ) : ℝ) + r := by
    push_cast
    ring
  rw [hslots, ray_slots hT _ hr, ray_slots hT n hr, Int.add_emod_right]

/-- **A right angle more turns the point by a quarter.** -/
theorem ray_add_right (hT : TangentLike T) (a : ℝ) : ray T (a + 90) = quarterTurn (ray T a) := by
  obtain ⟨n, r, hr, rfl⟩ := exists_slots a
  obtain ⟨hlow, hhigh⟩ := slots_bounds hT n hr
  have hpart := hT.bounds hr
  have hslots : 45 * (n : ℝ) + r + 90 = 45 * ((n + 2 : ℤ) : ℝ) + r := by
    push_cast
    ring
  rw [hslots, ray_slots hT _ hr, ray_slots hT n hr]
  rcases lt_or_ge (n % 8) 6 with h | h
  · have hcast : ((n % 8 : ℤ) : ℝ) ≤ 5 := by exact_mod_cast (show n % 8 ≤ 5 by omega)
    have hnext : (((n + 2) % 8 : ℤ) : ℝ) + T r = ((n % 8 : ℤ) : ℝ) + T r + 2 := by
      rw [show (n + 2) % 8 = n % 8 + 2 by omega]
      push_cast
      ring
    rw [hnext, edgeAt_add_two ⟨hlow, by linarith⟩]
  · have hcast : (6 : ℝ) ≤ ((n % 8 : ℤ) : ℝ) := by exact_mod_cast h
    have hnext : (((n + 2) % 8 : ℤ) : ℝ) + T r = ((n % 8 : ℤ) : ℝ) + T r - 6 := by
      rw [show (n + 2) % 8 = n % 8 - 6 by omega]
      push_cast
      ring
    rw [hnext, edgeAt_sub_six ⟨by linarith, hhigh⟩]

/-- Two right angles more lead to the opposite point. -/
theorem ray_add_half (hT : TangentLike T) (a : ℝ) : ray T (a + 180) = ⟨1 - (ray T a).x, 1 - (ray T a).y⟩ := by
  rw [show a + 180 = a + 90 + 90 by ring, ray_add_right hT, ray_add_right hT]
  rfl

/-- **Different angles below a whole turn lead to different points.** -/
theorem ray_injective (hT : TangentLike T) {a b : ℝ} (ha : 0 ≤ a ∧ a < 360) (hb : 0 ≤ b ∧ b < 360)
    (h : ray T a = ray T b) : a = b := by
  have hfirst {n : ℤ} {r : ℝ} (hr : 0 ≤ r ∧ r < 45) (ha : 0 ≤ 45 * (n : ℝ) + r ∧ 45 * (n : ℝ) + r < 360) :
      n % 8 = n := by
    have hlow : -1 < n := by exact_mod_cast (show (-1 : ℝ) < n by linarith)
    have hhigh : n < 8 := by exact_mod_cast (show (n : ℝ) < 8 by linarith)
    omega
  obtain ⟨n, r, hr, rfl⟩ := exists_slots a
  obtain ⟨m, s, hs, rfl⟩ := exists_slots b
  have hway : (n : ℝ) + T r = m + T s := by
    rw [ray_slots hT n hr, ray_slots hT m hs] at h
    have hway := edgeAt_injective (slots_bounds hT n hr) (slots_bounds hT m hs) h
    rwa [hfirst hr ha, hfirst hs hb] at hway
  -- the part of a slot is less than a whole one
  obtain ⟨hrlow, hrhigh⟩ := hT.bounds hr
  obtain ⟨hslow, hshigh⟩ := hT.bounds hs
  have hnm : n = m := by
    have hle : n < m + 1 := by exact_mod_cast (show (n : ℝ) < m + 1 by linarith)
    have hge : m < n + 1 := by exact_mod_cast (show (m : ℝ) < n + 1 by linarith)
    omega
  subst hnm
  have hpart : r = s := hT.mono.injOn hr hs (by linarith)
  rw [hpart]

/-- A gradient starts where the ray at its angle meets the edge, and ends where the opposite ray does. -/
theorem points_eq (a : ℝ) : points T a = (ray T a, ray T (a + 180)) := by
  obtain ⟨k, ⟨hlow, hhigh⟩, ha⟩ := exists_normalize a
  have hhalf : (180.0 : ℝ) = 180 := by norm_num
  have hopposite :
      normalize (a + 180) = if (180 : ℝ) ≤ normalize a then (normalize a : ℝ) - 180 else normalize a + 180 := by
    split
    next h => exact normalize_eq (k + 1) ⟨by linarith, by linarith⟩ (by push_cast; linarith)
    next h => exact normalize_eq k ⟨by linarith, by linarith⟩ (by linarith)
  unfold points ray
  rw [hopposite, hhalf]

/--
**How gradients lie**, with any tangent that grows from `0` and stays below `1` within a slot:
* they start and end on the edge of the unit square, at points opposite each other about its middle;
* a whole turn more changes nothing;
* a right angle more turns both points by a quarter about the middle, and so half a turn more swaps them;
* at different angles below a whole turn they start at different points.
-/
theorem points_turn (hT : TangentLike T) :
    (∀ a, (points T a).1.onBoundary 0 = true ∧ (points T a).2.onBoundary 0 = true
        ∧ (points T a).1.x + (points T a).2.x = 1 ∧ (points T a).1.y + (points T a).2.y = 1)
      ∧ (∀ a, points T (a + 360) = points T a)
      ∧ (∀ a, points T (a + 90) = (quarterTurn (points T a).1, quarterTurn (points T a).2))
      ∧ (∀ a, points T (a + 180) = (points T a).swap)
      ∧ ∀ a b, 0 ≤ a ∧ a < 360 → 0 ≤ b ∧ b < 360 → (points T a).1 = (points T b).1 → a = b := by
  refine ⟨fun a => ?_, fun a => ?_, fun a => ?_, fun a => ?_, fun a b ha hb h => ?_⟩
  · rw [points_eq]
    refine ⟨ray_onBoundary hT a, ray_onBoundary hT (a + 180), ?_, ?_⟩ <;> dsimp only <;> rw [ray_add_half hT] <;> ring
  · rw [points_eq, points_eq, ray_add_turn hT, show a + 360 + 180 = a + 180 + 360 by ring, ray_add_turn hT]
  · rw [points_eq, points_eq, ray_add_right hT, show a + 90 + 180 = a + 180 + 90 by ring, ray_add_right hT]
  · rw [points_eq, points_eq, show a + 180 + 180 = a + 360 by ring, ray_add_turn hT]
    rfl
  · rw [points_eq, points_eq] at h
    exact ray_injective hT ha hb h

/-- The tangent itself, of degrees. -/
noncomputable def tangentOfDegrees (degrees : ℝ) : ℝ := Real.tan (degrees * (Real.pi / 180))

/-- The tangent of an angle in degrees is like a tangent. -/
theorem tangentLike_tangent : TangentLike tangentOfDegrees where
  mono := by
    intro r hr s hs h
    have hpi := Real.pi_pos
    have hscale {t : ℝ} (ht : t ∈ Set.Ico (0 : ℝ) 45) : t * (Real.pi / 180) ∈ Set.Ioo (-(Real.pi / 2)) (Real.pi / 2) :=
      ⟨by nlinarith [ht.1], by nlinarith [ht.2]⟩
    exact Real.strictMonoOn_tan (hscale hr) (hscale hs) (by nlinarith)
  zero := by
    unfold tangentOfDegrees
    rw [zero_mul, Real.tan_zero]
  lt_one := by
    intro r hr
    have hpi := Real.pi_pos
    unfold tangentOfDegrees
    rw [← Real.tan_pi_div_four]
    refine Real.strictMonoOn_tan ⟨by nlinarith [hr.1], by nlinarith [hr.2]⟩ ⟨by linarith, by linarith⟩ ?_
    nlinarith [hr.2]

/-- From the bottom to the top at no angle, and so from the left to the right at a right one. -/
theorem points_turn_right : points tangentOfDegrees 90 = (⟨0, 1 / 2⟩, ⟨1, 1 / 2⟩) := by
  have hray : ray tangentOfDegrees 0 = ⟨1 / 2, 1⟩ := by
    have hway := ray_slots tangentLike_tangent 0 (show (0 : ℝ) ≤ 0 ∧ (0 : ℝ) < 45 by norm_num)
    rw [tangentLike_tangent.zero] at hway
    norm_num [edgeAt] at hway
    exact hway
  have hupward : points tangentOfDegrees 0 = (⟨1 / 2, 1⟩, ⟨1 / 2, 0⟩) := by
    rw [points_eq, ray_add_half tangentLike_tangent, hray]
    norm_num
  have hright := (points_turn tangentLike_tangent).2.2.1 0
  rw [zero_add, hupward] at hright
  rw [hright]
  norm_num [quarterTurn]

end Gradient
end HomeWidget
