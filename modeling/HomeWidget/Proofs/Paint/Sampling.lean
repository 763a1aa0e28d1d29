import HomeWidget.Paint.Gradient
import HomeWidget.Proofs.Scalar
import Mathlib.Order.Interval.Set.UnorderedInterval

/-!
# Colours along a gradient

A gradient that fills a rectangle has an axis there, from where it starts to where it stops, and the colour at a point
is decided by how far along the axis the point is: no farther than the start it is the first colour, no nearer than the
end the second, and between them every channel goes from the one to the other without turning back. The rectangle may
be inverted, or have no extent: where the axis is too short the first colour is everywhere.

Main results: `Rgba.channel_lerp`, `colorAt_of_long`, `colorAt_mono`, `colorAt_shift`, `colorAt_samples`.
-/
namespace HomeWidget

open Scalar

/-! ## §1. Channels -/

/-- The four channels of a colour. -/
inductive Channel
  | red
  | green
  | blue
  | opacity
  deriving DecidableEq, Repr

namespace Rgba

/-- The colour in one of its channels. -/
def channel {α : Type} (c : Rgba α) : Channel → α
  | .red => c.r
  | .green => c.g
  | .blue => c.b
  | .opacity => c.a

/-- Colours with the same channels are the same. -/
theorem ext_channel {α : Type} {c d : Rgba α} (h : ∀ k, c.channel k = d.channel k) : c = d := by
  obtain ⟨r, g, b, a⟩ := c
  obtain ⟨r', g', b', a'⟩ := d
  obtain rfl : r = r' := h .red
  obtain rfl : g = g' := h .green
  obtain rfl : b = b' := h .blue
  obtain rfl : a = a' := h .opacity
  rfl

variable {c d : Rgba Rat} {t u : Rat} {k : Channel}

/-- **Every channel is mixed alike**, in the proportion of a number within `[0, 1]`. -/
theorem channel_lerp (c d : Rgba Rat) (t : Rat) (k : Channel) :
    (c.lerp d t).channel k = c.channel k + (d.channel k - c.channel k) * min (max 0 t) 1 := by
  unfold lerp
  rw [clampUnit_eq]
  cases k <;> rfl

/-- Up to the first point there is the first colour. -/
theorem lerp_of_nonpos (h : t ≤ 0) : c.lerp d t = c := by
  refine ext_channel fun k => ?_
  rw [channel_lerp, max_eq_left h, min_eq_left zero_le_one, mul_zero, add_zero]

/-- From the second point on there is the second colour. -/
theorem lerp_of_one_le (h : 1 ≤ t) : c.lerp d t = d := by
  refine ext_channel fun k => ?_
  rw [channel_lerp, max_eq_right (zero_le_one.trans h), min_eq_right h, mul_one, add_sub_cancel]

/-- A channel goes up where the second colour has more of it. -/
theorem channel_lerp_mono (hk : c.channel k ≤ d.channel k) (h : t ≤ u) :
    (c.lerp d t).channel k ≤ (c.lerp d u).channel k := by
  have hclamped : min (max 0 t) 1 ≤ min (max 0 u) 1 := min_le_min_right 1 (max_le_max_left 0 h)
  rw [channel_lerp, channel_lerp]
  exact add_le_add_right (mul_le_mul_of_nonneg_left hclamped (sub_nonneg.2 hk)) _

/-- A channel goes down where the second colour has less of it. -/
theorem channel_lerp_anti (hk : d.channel k ≤ c.channel k) (h : t ≤ u) :
    (c.lerp d u).channel k ≤ (c.lerp d t).channel k := by
  have hclamped : min (max 0 t) 1 ≤ min (max 0 u) 1 := min_le_min_right 1 (max_le_max_left 0 h)
  rw [channel_lerp, channel_lerp]
  exact add_le_add_right (mul_le_mul_of_nonpos_left hclamped (sub_nonpos.2 hk)) _

/-- In between no channel leaves those of the two colours. -/
theorem channel_lerp_mem (c d : Rgba Rat) (t : Rat) (k : Channel) :
    (c.lerp d t).channel k ∈ Set.uIcc (c.channel k) (d.channel k) := by
  have hstart : c.lerp d (min 0 t) = c := lerp_of_nonpos (min_le_left 0 t)
  have hend : c.lerp d (max 1 t) = d := lerp_of_one_le (le_max_left 1 t)
  rcases le_total (c.channel k) (d.channel k) with hk | hk
  · have hlow := channel_lerp_mono hk (min_le_right 0 t)
    have hhigh := channel_lerp_mono hk (le_max_right 1 t)
    rw [hstart] at hlow
    rw [hend] at hhigh
    exact Set.mem_uIcc.2 (Or.inl ⟨hlow, hhigh⟩)
  · have hhigh := channel_lerp_anti hk (min_le_right 0 t)
    have hlow := channel_lerp_anti hk (le_max_right 1 t)
    rw [hstart] at hhigh
    rw [hend] at hlow
    exact Set.mem_uIcc.2 (Or.inr ⟨hlow, hhigh⟩)

end Rgba

/-! ## §2. The axis -/

/-- The point moved along. -/
def Point.shift (p : Point Rat) (dx dy : Rat) : Point Rat := ⟨p.x + dx, p.y + dy⟩

/-- The rectangle moved along. -/
def Rect.shift (r : Rect Rat) (dx dy : Rat) : Rect Rat := ⟨r.x0 + dx, r.y0 + dy, r.x1 + dx, r.y1 + dy⟩

/-- A point given in parts of a rectangle moves with the rectangle. -/
theorem UnitPoint.within_shift (u : UnitPoint Rat) (r : Rect Rat) (dx dy : Rat) :
    u.within (r.shift dx dy) = (u.within r).shift dx dy := by
  refine congrArg₂ Point.mk ?_ ?_
  · show r.x0 + dx + u.x * (r.x1 + dx - (r.x0 + dx)) = r.x0 + u.x * (r.x1 - r.x0) + dx
    ring
  · show r.y0 + dy + u.y * (r.y1 + dy - (r.y0 + dy)) = r.y0 + u.y * (r.y1 - r.y0) + dy
    ring

namespace Gradient

variable (g : Gradient Rat) (rect : Rect Rat)

/-- From the start of the gradient to its end, in the rectangle that it fills. -/
def axis : Point Rat :=
  ⟨(g.stop.within rect).x - (g.start.within rect).x, (g.stop.within rect).y - (g.start.within rect).y⟩

/-- The square of the length of the axis. -/
def axisSquared : Rat := (g.axis rect).x * (g.axis rect).x + (g.axis rect).y * (g.axis rect).y

/-- How far along the axis a point is: its projection on the axis, times the length of the axis. -/
def along (p : Point Rat) : Rat := p.x * (g.axis rect).x + p.y * (g.axis rect).y

/-- An axis between two such points moves with the rectangle. -/
theorem axis_shift (dx dy : Rat) : g.axis (rect.shift dx dy) = g.axis rect := by
  unfold axis
  rw [UnitPoint.within_shift, UnitPoint.within_shift]
  exact congrArg₂ Point.mk (add_sub_add_right_eq_sub _ _ _) (add_sub_add_right_eq_sub _ _ _)

/-- The end is one axis farther than the start. -/
theorem along_stop : g.along rect (g.stop.within rect) = g.along rect (g.start.within rect) + g.axisSquared rect := by
  unfold along axisSquared axis
  ring

/-- The least squared length of an axis is a power of two. -/
theorem leastAxis_eq : (leastAxis : Rat) = 1 / 2 ^ 52 := by
  unfold leastAxis
  norm_num

variable {g rect} {p q : Point Rat}

/-- A shorter axis has no direction, and the first colour is everywhere. -/
theorem colorAt_of_short (h : g.axisSquared rect ≤ leastAxis) (p : Point Rat) : g.colorAt rect p = g.first := if_pos h

/-- **How far along the axis the point is decides its colour.** -/
theorem colorAt_of_long (h : leastAxis < g.axisSquared rect) (p : Point Rat) : g.colorAt rect p
    = g.first.lerp g.second ((g.along rect p - g.along rect (g.start.within rect)) / g.axisSquared rect) := by
  have hshare : g.along rect p - g.along rect (g.start.within rect)
      = (p.x - (g.start.within rect).x) * (g.axis rect).x + (p.y - (g.start.within rect).y) * (g.axis rect).y := by
    unfold along
    ring
  rw [hshare]
  exact if_neg (not_le.2 h)

/-- A longer one has a length to divide by. -/
theorem axisSquared_pos (h : leastAxis < g.axisSquared rect) : 0 < g.axisSquared rect := by
  refine lt_trans ?_ h
  rw [leastAxis_eq]
  norm_num

/-- Up to the start of the axis it is the first colour. -/
theorem colorAt_before (h : leastAxis < g.axisSquared rect)
    (hp : g.along rect p ≤ g.along rect (g.start.within rect)) : g.colorAt rect p = g.first := by
  rw [colorAt_of_long h]
  exact Rgba.lerp_of_nonpos (div_nonpos_of_nonpos_of_nonneg (sub_nonpos.2 hp) (axisSquared_pos h).le)

/-- From the end of the axis on it is the second colour. -/
theorem colorAt_behind (h : leastAxis < g.axisSquared rect)
    (hp : g.along rect (g.stop.within rect) ≤ g.along rect p) : g.colorAt rect p = g.second := by
  rw [colorAt_of_long h]
  refine Rgba.lerp_of_one_le ((one_le_div (axisSquared_pos h)).2 ?_)
  rw [along_stop] at hp
  linarith

/-- **Farther along the axis no channel turns back**: it only comes nearer to the second colour. -/
theorem colorAt_mono (h : leastAxis < g.axisSquared rect) (hpq : g.along rect p ≤ g.along rect q) (k : Channel) :
    (g.first.channel k ≤ g.second.channel k → (g.colorAt rect p).channel k ≤ (g.colorAt rect q).channel k)
      ∧ (g.second.channel k ≤ g.first.channel k → (g.colorAt rect q).channel k ≤ (g.colorAt rect p).channel k) := by
  have hshare : (g.along rect p - g.along rect (g.start.within rect)) / g.axisSquared rect
      ≤ (g.along rect q - g.along rect (g.start.within rect)) / g.axisSquared rect :=
    div_le_div_of_nonneg_right (sub_le_sub_right hpq _) (axisSquared_pos h).le
  rw [colorAt_of_long h, colorAt_of_long h]
  exact ⟨fun hk => Rgba.channel_lerp_mono hk hshare, fun hk => Rgba.channel_lerp_anti hk hshare⟩

/-- **No channel leaves those of the two colours**, anywhere. -/
theorem colorAt_mem (p : Point Rat) (k : Channel) :
    (g.colorAt rect p).channel k ∈ Set.uIcc (g.first.channel k) (g.second.channel k) := by
  rcases le_or_gt (g.axisSquared rect) leastAxis with h | h
  · rw [colorAt_of_short h]
    exact Set.left_mem_uIcc
  · rw [colorAt_of_long h]
    exact Rgba.channel_lerp_mem _ _ _ k

/-- **The colours move with the rectangle.** -/
theorem colorAt_shift (p : Point Rat) (dx dy : Rat) :
    g.colorAt (rect.shift dx dy) (p.shift dx dy) = g.colorAt rect p := by
  have hsquared : g.axisSquared (rect.shift dx dy) = g.axisSquared rect := by
    unfold axisSquared
    rw [axis_shift]
  rcases le_or_gt (g.axisSquared rect) leastAxis with h | h
  · rw [colorAt_of_short h, colorAt_of_short (hsquared.trans_le h)]
  · -- how far along the axis two points are apart does not change
    have hapart : g.along (rect.shift dx dy) (p.shift dx dy)
          - g.along (rect.shift dx dy) (g.start.within (rect.shift dx dy))
        = g.along rect p - g.along rect (g.start.within rect) := by
      unfold along
      rw [axis_shift, UnitPoint.within_shift]
      unfold Point.shift
      ring
    rw [colorAt_of_long h, colorAt_of_long (hsquared.symm ▸ h), hapart, hsquared]

/--
**The colours of a gradient**, whatever its two points are, and in every rectangle that it fills:
* each channel is between those of the two colours, everywhere;
* where the axis has a length, the first colour is at its start and the second at its end; points that are equally far
  along it have the same colour; farther along, no channel turns back; and beyond either end the colour stays;
* where the axis has none, the first colour is everywhere;
* the colours move with the rectangle.
-/
theorem colorAt_samples (g : Gradient Rat) (rect : Rect Rat) :
    (∀ p k, (g.colorAt rect p).channel k ∈ Set.uIcc (g.first.channel k) (g.second.channel k))
      ∧ (leastAxis < g.axisSquared rect →
          (g.colorAt rect (g.start.within rect) = g.first ∧ g.colorAt rect (g.stop.within rect) = g.second)
            ∧ (∀ p q, g.along rect p = g.along rect q → g.colorAt rect p = g.colorAt rect q)
            ∧ (∀ p q k, g.along rect p ≤ g.along rect q →
                (g.first.channel k ≤ g.second.channel k → (g.colorAt rect p).channel k ≤ (g.colorAt rect q).channel k)
                  ∧ (g.second.channel k ≤ g.first.channel k →
                      (g.colorAt rect q).channel k ≤ (g.colorAt rect p).channel k))
            ∧ (∀ p, g.along rect p ≤ g.along rect (g.start.within rect) → g.colorAt rect p = g.first)
            ∧ ∀ p, g.along rect (g.stop.within rect) ≤ g.along rect p → g.colorAt rect p = g.second)
      ∧ (g.axisSquared rect ≤ leastAxis → ∀ p, g.colorAt rect p = g.first)
      ∧ ∀ p dx dy, g.colorAt (rect.shift dx dy) (p.shift dx dy) = g.colorAt rect p := by
  refine ⟨colorAt_mem, fun h => ⟨⟨colorAt_before h le_rfl, colorAt_behind h le_rfl⟩, fun p q hpq => ?_,
    fun p q k hpq => colorAt_mono h hpq k, fun p => colorAt_before h, fun p => colorAt_behind h⟩, colorAt_of_short,
    colorAt_shift⟩
  rw [colorAt_of_long h, colorAt_of_long h, hpq]

/-- From black at the top to white at the bottom. -/
def downward : Gradient Rat := between .top .bottom .black .white

/-- In a rectangle that is upside down and in one without extent. -/
theorem colorAt_samples_inverted :
    downward.colorAt ⟨0, 10, 10, 0⟩ ⟨3, 12⟩ = .black ∧ downward.colorAt ⟨0, 10, 10, 0⟩ ⟨3, -2⟩ = .white
      ∧ downward.colorAt ⟨4, 4, 4, 4⟩ ⟨5, 6⟩ = .black := by
  have hinverted := (colorAt_samples downward ⟨0, 10, 10, 0⟩).2.1 (by decide +kernel)
  obtain ⟨-, -, -, hbefore, hbehind⟩ := hinverted
  have hempty := (colorAt_samples downward ⟨4, 4, 4, 4⟩).2.2.1 (by decide +kernel)
  exact ⟨hbefore ⟨3, 12⟩ (by decide +kernel), hbehind ⟨3, -2⟩ (by decide +kernel), hempty ⟨5, 6⟩⟩

end Gradient
end HomeWidget
