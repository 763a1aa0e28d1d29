import HomeWidget.Proofs.Carousel.Selection

/-!
# Distances modulo the period

The distance of a page is the remainder of its position by the period of the band: what is left of it after the nearest
whole number of periods. So its size is how far the position is from the nearest multiple of the period, and that does
not change when the position moves by whole periods. Its sign may change, since between two multiples that are equally
near the even one is taken. What a band looks like depends on sizes only, and so does the page that is current.

Main results: `isLeast_abs_signedRemainder`, `abs_signedRemainder_add`, `currentItem?_congr`, `wrapped_distance`.
-/
namespace HomeWidget.Carousel

open Scalar

/-! ## §1. The remainder nearest to zero -/

theorem signedRemainder_zero (x : ℚ) : signedRemainder x 0 = 0 := by
  unfold signedRemainder
  rw [isZero_iff.2 rfl]
  exact zero_eq

theorem signedRemainder_of_ne {m : ℚ} (hm : m ≠ 0) (x : ℚ) : signedRemainder x m = x - m * nearestEven (x / m) := by
  have hzero : isZero m = false := Bool.eq_false_iff.2 (mt isZero_iff.1 hm)
  unfold signedRemainder
  rw [hzero, roundEven_eq]
  rfl

/-- The remainder as a part of the period. -/
theorem abs_signedRemainder {m : ℚ} (hm : m ≠ 0) (x : ℚ) :
    |signedRemainder x m| = |m| * |x / m - nearestEven (x / m)| := by
  rw [signedRemainder_of_ne hm, ← abs_mul, mul_sub, mul_div_cancel₀ x hm]

/-- **The remainder is at most half of the period**, and where it is half of it, the multiple is an even one. -/
theorem abs_signedRemainder_le {m : ℚ} (hm : 0 < m) (x : ℚ) :
    |signedRemainder x m| ≤ m / 2 ∧ (|signedRemainder x m| = m / 2 → Even (nearestEven (x / m))) := by
  obtain ⟨hhalf, heven⟩ := nearestEven_bounds (x / m)
  rw [abs_signedRemainder hm.ne', abs_of_pos hm]
  refine ⟨by nlinarith, fun htie => heven ?_⟩
  exact mul_left_cancel₀ hm.ne' (htie.trans (by ring))

/-- No whole number is nearer than the nearest one. -/
theorem abs_sub_nearestEven_le_abs_sub (q : ℚ) (z : ℤ) : |q - nearestEven q| ≤ |q - z| := by
  by_cases h : nearestEven q = z
  · rw [h]
  · -- another whole number is at least one away from it, and so at least a half away from what is rounded
    have hhalf := (nearestEven_bounds q).1
    have hone : 1 ≤ |q - nearestEven q| + |q - z| := by
      calc (1 : ℚ) ≤ |(nearestEven q : ℚ) - z| := by exact_mod_cast Int.one_le_abs (sub_ne_zero.2 h)
        _ ≤ |(nearestEven q : ℚ) - q| + |q - z| := abs_sub_le _ _ _
        _ = |q - nearestEven q| + |q - z| := by rw [abs_sub_comm]
    linarith

/-- **The size of the remainder is the distance to the nearest multiple of the period.** -/
theorem isLeast_abs_signedRemainder {m : ℚ} (hm : m ≠ 0) (x : ℚ) :
    IsLeast (Set.range fun z : ℤ => |x - m * z|) |signedRemainder x m| := by
  refine ⟨⟨nearestEven (x / m), ?_⟩, ?_⟩
  · dsimp only
    rw [signedRemainder_of_ne hm]
  · rintro _ ⟨z, rfl⟩
    have hscaled : |x - m * z| = |m| * |x / m - z| := by rw [← abs_mul, mul_sub, mul_div_cancel₀ x hm]
    dsimp only
    rw [abs_signedRemainder hm, hscaled]
    exact mul_le_mul_of_nonneg_left (abs_sub_nearestEven_le_abs_sub (x / m) z) (abs_nonneg m)

/-- **Whole periods do not change the size of the remainder.** -/
theorem abs_signedRemainder_add (x m : ℚ) (z : ℤ) : |signedRemainder (x + m * z) m| = |signedRemainder x m| := by
  rcases eq_or_ne m 0 with rfl | hm
  · rw [signedRemainder_zero, signedRemainder_zero]
  · -- the multiples are as far from the one position as from the other, though not the same ones
    have hrange : (Set.range fun k : ℤ => |x + m * z - m * k|) = Set.range fun k : ℤ => |x - m * k| := by
      rw [← (Equiv.addRight z).surjective.range_comp]
      congr 1
      funext k
      dsimp only [Function.comp_apply, Equiv.coe_addRight]
      congr 1
      push_cast
      ring
    have hleast := isLeast_abs_signedRemainder hm (x + m * z)
    rw [hrange] at hleast
    exact hleast.unique (isLeast_abs_signedRemainder hm x)

/-! ## §2. What depends on the sizes of distances -/

variable {c d : Carousel ℚ}

theorem nearer_congr (h : ∀ i, |c.distance i| = |d.distance i|) : c.nearer = d.nearer := by
  funext best i
  unfold nearer
  rw [abs_eq_abs, abs_eq_abs, h i]

/-- **The current page depends on the pages and the sizes of their distances.** -/
theorem currentItem?_congr (hpages : c.pages = d.pages) (h : ∀ i, |c.distance i| = |d.distance i|) :
    c.currentItem? = d.currentItem? := by
  unfold currentItem?
  rw [hpages, nearer_congr h]

/-- So do the scale of a page and how close it is to the viewer. -/
theorem visual_congr (hpages : c.pages = d.pages) {i : ℕ} (h : |c.distance i| = |d.distance i|) :
    (c.visual i).scale = (d.visual i).scale ∧ (c.visual i).zOrder = (d.visual i).zOrder := by
  unfold visual
  dsimp only
  rw [abs_eq_abs, abs_eq_abs, hpages, h]
  exact ⟨rfl, rfl⟩

/-! ## §3. A band that is wound on -/

/-- The period of distances. -/
def period (c : Carousel ℚ) : ℚ := c.count * c.options.wrapFactor

/-- The band with its position moved by whole periods. -/
def wound (c : Carousel ℚ) (z : ℤ) : Carousel ℚ := { c with drag := c.drag + c.period * z }

theorem abs_distance_wound (c : Carousel ℚ) (z : ℤ) (i : ℕ) : |(c.wound z).distance i| = |c.distance i| := by
  show |signedRemainder (c.drag + c.period * z - i) c.period| = |signedRemainder (c.drag - i) c.period|
  rw [add_sub_right_comm, abs_signedRemainder_add]

/--
**Distances wrap around.** In exact arithmetic, for every position and every positive period:
* the remainder differs from the position by a multiple of the period, by an even one where two are equally near;
* it lies within half a period of zero;
* its size is the distance to the nearest multiple of the period;
* its size stays when the position moves by whole periods.

So when a band moves by whole periods, however many pages it has, the current page stays, and every page keeps its scale
and how close it is to the viewer.
-/
theorem wrapped_distance :
    (∀ x m : ℚ, 0 < m →
        (∃ n : ℤ, signedRemainder x m = x - m * n ∧ (|signedRemainder x m| = m / 2 → Even n))
          ∧ -(m / 2) ≤ signedRemainder x m ∧ signedRemainder x m ≤ m / 2
          ∧ IsLeast (Set.range fun z : ℤ => |x - m * z|) |signedRemainder x m|
          ∧ ∀ z : ℤ, |signedRemainder (x + m * z) m| = |signedRemainder x m|)
      ∧ ∀ (c : Carousel ℚ) (z : ℤ), (c.wound z).currentItem? = c.currentItem?
          ∧ ∀ i, ((c.wound z).visual i).scale = (c.visual i).scale ∧ ((c.wound z).visual i).zOrder = (c.visual i).zOrder := by
  refine ⟨fun x m hm => ?_, fun c z => ?_⟩
  · obtain ⟨hhalf, heven⟩ := abs_signedRemainder_le hm x
    obtain ⟨hlow, hhigh⟩ := abs_le.1 hhalf
    exact ⟨⟨nearestEven (x / m), signedRemainder_of_ne hm.ne' x, heven⟩, hlow, hhigh,
      isLeast_abs_signedRemainder hm.ne' x, abs_signedRemainder_add x m⟩
  · have hpages : (c.wound z).pages = c.pages := rfl
    exact ⟨currentItem?_congr hpages (abs_distance_wound c z), fun i => visual_congr hpages (abs_distance_wound c z i)⟩

/-- Half a period from a multiple: a whole period further the remainder has the other sign, and the same size. -/
theorem wrapped_distance_half :
    (0 : ℚ) < 5 ∧ signedRemainder (5 / 2 : ℚ) 5 = 5 / 2 ∧ signedRemainder (5 / 2 + 5 * (1 : ℤ) : ℚ) 5 = -(5 / 2)
      ∧ |signedRemainder (5 / 2 + 5 * (1 : ℤ) : ℚ) 5| = |signedRemainder (5 / 2 : ℚ) 5| := by
  have hperiod : (0 : ℚ) < 5 := by norm_num
  obtain ⟨-, -, -, -, hshift⟩ := wrapped_distance.1 (5 / 2) 5 hperiod
  exact ⟨hperiod, by decide +kernel, by decide +kernel, hshift 1⟩

end HomeWidget.Carousel
