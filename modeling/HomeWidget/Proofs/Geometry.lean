import HomeWidget.Geometry
import HomeWidget.Proofs.Scalar

/-!
# Rectangles over the rationals

Which points lie in a rectangle, in the circle that it holds, and in the rectangle with rounded corners, said without
a computation: by inequalities, by a distance, and by discs that fit into the rectangle. The tests of points decide
just this. A rectangle that is inverted or empty holds no point and no circle.

Main results: `contains_iff`, `holds_intersect`, `circleContains_iff`, `roundedContains_iff`.
-/
namespace HomeWidget

open Scalar

namespace Rect

/-! ## §1. Half open rectangles -/

/-- The point lies inside, or on the top or left edge. -/
def Holds (r : Rect Rat) (p : Point Rat) : Prop := r.x0 ≤ p.x ∧ p.x < r.x1 ∧ r.y0 ≤ p.y ∧ p.y < r.y1

/-- The rectangle is neither inverted nor empty. -/
def Proper (r : Rect Rat) : Prop := r.x0 < r.x1 ∧ r.y0 < r.y1

instance (r : Rect Rat) (p : Point Rat) : Decidable (r.Holds p) := inferInstanceAs (Decidable (_ ∧ _))

instance (r : Rect Rat) : Decidable r.Proper := inferInstanceAs (Decidable (_ ∧ _))

/-- A rectangle contains the points from its low edges up to, but not at, its high ones. -/
theorem contains_iff {r : Rect Rat} {p : Point Rat} : r.contains p = true ↔ r.Holds p := by
  unfold contains Holds
  simp only [Bool.and_eq_true, decide_eq_true_eq]
  tauto

/-- A rectangle that holds a point has a width and a height. -/
theorem Holds.proper {r : Rect Rat} {p : Point Rat} (h : r.Holds p) : r.Proper :=
  ⟨h.1.trans_lt h.2.1, h.2.2.1.trans_lt h.2.2.2⟩

/-- What two rectangles share holds the points that both hold. -/
theorem holds_intersect {r s : Rect Rat} {p : Point Rat} : (r.intersect s).Holds p ↔ r.Holds p ∧ s.Holds p := by
  unfold intersect Holds
  simp only [least_eq_min, greatest_eq_max, max_le_iff, lt_max_iff, lt_min_iff]
  constructor
  · -- the corner that keeps the shared rectangle from being inverted is before the point
    rintro ⟨⟨hr0, hs0⟩, hx, ⟨hr1, hs1⟩, hy⟩
    have hx' : p.x < r.x1 ∧ p.x < s.x1 := hx.resolve_right fun h => by
      rcases h with h | h <;> linarith
    have hy' : p.y < r.y1 ∧ p.y < s.y1 := hy.resolve_right fun h => by
      rcases h with h | h <;> linarith
    exact ⟨⟨hr0, hx'.1, hr1, hy'.1⟩, hs0, hx'.2, hs1, hy'.2⟩
  · rintro ⟨⟨hr0, hrx, hr1, hry⟩, hs0, hsx, hs1, hsy⟩
    exact ⟨⟨hr0, hs0⟩, Or.inl ⟨hrx, hsx⟩, ⟨hr1, hs1⟩, Or.inl ⟨hry, hsy⟩⟩

/-- What two rectangles share is proper only if the first of them is. -/
theorem Proper.of_intersect {r s : Rect Rat} (h : (r.intersect s).Proper) : r.Proper := by
  unfold intersect Proper at h
  simp only [least_eq_min, greatest_eq_max] at h
  obtain ⟨hx, hy⟩ := h
  have hx' := (lt_max_iff.1 hx).resolve_right (lt_irrefl _)
  have hy' := (lt_max_iff.1 hy).resolve_right (lt_irrefl _)
  exact ⟨(max_lt_iff.1 (lt_min_iff.1 hx').1).1, (max_lt_iff.1 (lt_min_iff.1 hy').1).1⟩

theorem proper_iff {r : Rect Rat} : r.Proper ↔ ¬(r.width ≤ 0.0 ∨ r.height ≤ 0.0) := by
  unfold Proper width height
  rw [zero_eq, not_or, not_le, not_le, sub_pos, sub_pos]

theorem center_x (r : Rect Rat) : r.center.x = (r.x0 + r.x1) / 2 := by
  show (0.5 : Rat) * (r.x0 + r.x1) = _
  ring

theorem center_y (r : Rect Rat) : r.center.y = (r.y0 + r.y1) / 2 := by
  show (0.5 : Rat) * (r.y0 + r.y1) = _
  ring

/-- A proper rectangle has its edges in order. -/
theorem sorted_eq_self {r : Rect Rat} (h : r.Proper) : r.sorted = r := by
  unfold sorted
  simp only [least_eq_min, greatest_eq_max]
  rw [min_eq_left h.1.le, min_eq_left h.2.le, max_eq_right h.1.le, max_eq_right h.2.le]

/-- Sides are moved in up to the middle at most; nothing moves out. -/
theorem inset_eq (r : Rect Rat) (d : Rat) :
    r.inset d = if d ≤ 0 then r
      else ⟨min (r.x0 + d) ((r.x0 + r.x1) / 2), min (r.y0 + d) ((r.y0 + r.y1) / 2), max (r.x1 - d) ((r.x0 + r.x1) / 2),
        max (r.y1 - d) ((r.y0 + r.y1) / 2)⟩ := by
  have hguard : (!isFinite d || decide (d ≤ 0.0)) = decide (d ≤ 0) := by
    rw [zero_eq]
    rfl
  unfold inset
  simp only [hguard, decide_eq_true_eq, least_eq_min, greatest_eq_max, center_x, center_y]

/-! ## §2. Circles -/

/-- The point lies strictly inside the largest circle that the rectangle holds about its middle. -/
def HoldsInCircle (r : Rect Rat) (p : Point Rat) : Prop :=
  r.Proper ∧ (p.x - (r.x0 + r.x1) / 2) ^ 2 + (p.y - (r.y0 + r.y1) / 2) ^ 2
    < (min (r.x1 - r.x0) (r.y1 - r.y0) / 2) ^ 2

/-- The disc of a rectangle reaches as far as half of the shorter side. -/
theorem circleContains_iff {r : Rect Rat} {p : Point Rat} (h : r.Proper) :
    r.circleContains p = true ↔ r.HoldsInCircle p := by
  unfold circleContains HoldsInCircle width height
  simp only [decide_eq_true_eq, least_eq_min, center_x, center_y, two_eq, ← sq, h, true_and]

/-- The circle lies inside the rectangle. -/
theorem HoldsInCircle.holds {r : Rect Rat} {p : Point Rat} (h : r.HoldsInCircle p) : r.Holds p := by
  obtain ⟨⟨hx, hy⟩, hnear⟩ := h
  have hradius : 0 ≤ min (r.x1 - r.x0) (r.y1 - r.y0) / 2 := by
    have : 0 ≤ min (r.x1 - r.x0) (r.y1 - r.y0) := le_min (by linarith) (by linarith)
    linarith
  -- along either axis the point is nearer to the middle than the radius, which is at most half the side
  have hdx := abs_lt.1 (abs_lt_of_sq_lt_sq (lt_of_le_of_lt (le_add_of_nonneg_right (sq_nonneg _)) hnear) hradius)
  have hdy := abs_lt.1 (abs_lt_of_sq_lt_sq (lt_of_le_of_lt (le_add_of_nonneg_left (sq_nonneg _)) hnear) hradius)
  have hw := min_le_left (r.x1 - r.x0) (r.y1 - r.y0)
  have hh := min_le_right (r.x1 - r.x0) (r.y1 - r.y0)
  exact ⟨by linarith, by linarith, by linarith, by linarith⟩

/-! ## §3. Rounded corners -/

/-- The radius that corners are really rounded by: at most half of the shorter side. -/
def cornerRadius (r : Rect Rat) (radius : Rat) : Rat := min radius (min (r.x1 - r.x0) (r.y1 - r.y0) / 2)

/-- A corner takes no more than half of the width, and no more than half of the height. -/
theorem cornerRadius_le_width (r : Rect Rat) (radius : Rat) : r.cornerRadius radius ≤ (r.x1 - r.x0) / 2 := by
  have hside := min_le_left (r.x1 - r.x0) (r.y1 - r.y0)
  exact (min_le_right _ _).trans (by linarith)

theorem cornerRadius_le_height (r : Rect Rat) (radius : Rat) : r.cornerRadius radius ≤ (r.y1 - r.y0) / 2 := by
  have hside := min_le_right (r.x1 - r.x0) (r.y1 - r.y0)
  exact (min_le_right _ _).trans (by linarith)

/-- The point lies in a disc of the corner radius that fits into the rectangle: one about a point at least that
far from every edge. -/
def HoldsRounded (r : Rect Rat) (radius : Rat) (p : Point Rat) : Prop :=
  let ρ := r.cornerRadius radius
  ∃ q : Point Rat, (r.x0 + ρ ≤ q.x ∧ q.x ≤ r.x1 - ρ) ∧ (r.y0 + ρ ≤ q.y ∧ q.y ≤ r.y1 - ρ)
    ∧ (p.x - q.x) ^ 2 + (p.y - q.y) ^ 2 ≤ ρ ^ 2

/-- How far a position lies beyond a span about a middle. -/
def beyond (x middle half : Rat) : Rat := max (|x - middle| - half) 0

/-- No position of the span is nearer. -/
theorem beyond_sq_le {x middle half q : Rat} (hlow : middle - half ≤ q) (hhigh : q ≤ middle + half) :
    beyond x middle half ^ 2 ≤ (x - q) ^ 2 := by
  have hq : |q - middle| ≤ half := abs_le.2 ⟨by linarith, by linarith⟩
  have htriangle : |x - middle| ≤ |x - q| + |q - middle| := abs_sub_le x q middle
  have hle : beyond x middle half ≤ |x - q| := max_le (by linarith) (abs_nonneg _)
  calc beyond x middle half ^ 2 ≤ |x - q| ^ 2 := pow_le_pow_left₀ (le_max_right _ _) hle 2
    _ = (x - q) ^ 2 := sq_abs _

/-- Some position of the span is that near. -/
theorem exists_beyond_sq_eq (x middle : Rat) {half : Rat} (h : 0 ≤ half) :
    ∃ q, (middle - half ≤ q ∧ q ≤ middle + half) ∧ (x - q) ^ 2 = beyond x middle half ^ 2 := by
  unfold beyond
  rcases le_total x (middle - half) with hlow | hlow
  · refine ⟨middle - half, ⟨le_rfl, by linarith⟩, ?_⟩
    rw [abs_of_nonpos (by linarith), max_eq_left (by linarith)]
    ring
  · rcases le_total x (middle + half) with hhigh | hhigh
    · have hinside : |x - middle| ≤ half := abs_le.2 ⟨by linarith, by linarith⟩
      refine ⟨x, ⟨hlow, hhigh⟩, ?_⟩
      rw [max_eq_right (by linarith), sub_self]
    · refine ⟨middle + half, ⟨by linarith, le_rfl⟩, ?_⟩
      rw [abs_of_nonneg (by linarith), max_eq_left (by linarith)]
      ring

/-- A rounded rectangle holds the points within the radius of a rectangle that is smaller by the radius on each side. -/
theorem roundedContains_eq {r : Rect Rat} (h : r.Proper) {radius : Rat} (hradius : 0 ≤ radius) (p : Point Rat) :
    r.roundedContains radius p = true
      ↔ beyond p.x ((r.x0 + r.x1) / 2) ((r.x1 - r.x0) / 2 - r.cornerRadius radius) ^ 2
          + beyond p.y ((r.y0 + r.y1) / 2) ((r.y1 - r.y0) / 2 - r.cornerRadius radius) ^ 2
        ≤ r.cornerRadius radius ^ 2 := by
  have hcorner : min |radius| (min (r.x1 - r.x0) (r.y1 - r.y0) / 2) = r.cornerRadius radius := by
    rw [abs_of_nonneg hradius]
    rfl
  unfold roundedContains beyond
  simp only [sorted_eq_self h, least_eq_min, greatest_eq_max, abs_eq_abs, center_x, center_y, width, height, two_eq,
    zero_eq, decide_eq_true_eq, ← sq, hcorner]
  rw [max_eq_left (sub_nonneg.2 (r.cornerRadius_le_width radius)),
    max_eq_left (sub_nonneg.2 (r.cornerRadius_le_height radius))]

/-- A point is in the rectangle with rounded corners just when one of the discs holds it. -/
theorem roundedContains_iff {r : Rect Rat} (h : r.Proper) {radius : Rat} (hradius : 0 ≤ radius) {p : Point Rat} :
    r.roundedContains radius p = true ↔ r.HoldsRounded radius p := by
  rw [roundedContains_eq h hradius]
  constructor
  · -- the disc about the nearest of the centres
    intro hnear
    obtain ⟨qx, ⟨hx0, hx1⟩, hqx⟩ :=
      exists_beyond_sq_eq p.x ((r.x0 + r.x1) / 2) (sub_nonneg.2 (r.cornerRadius_le_width radius))
    obtain ⟨qy, ⟨hy0, hy1⟩, hqy⟩ :=
      exists_beyond_sq_eq p.y ((r.y0 + r.y1) / 2) (sub_nonneg.2 (r.cornerRadius_le_height radius))
    refine ⟨⟨qx, qy⟩, ⟨by linarith, by linarith⟩, ⟨by linarith, by linarith⟩, ?_⟩
    rw [hqx, hqy]
    exact hnear
  · rintro ⟨q, ⟨hx0, hx1⟩, ⟨hy0, hy1⟩, hdisc⟩
    exact (add_le_add (beyond_sq_le (by linarith) (by linarith)) (beyond_sq_le (by linarith) (by linarith))).trans hdisc

end Rect
end HomeWidget
