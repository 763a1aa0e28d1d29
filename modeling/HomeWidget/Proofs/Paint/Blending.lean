import HomeWidget.Proofs.Paint.Sampling

/-!
# Colours laid over one another

What is seen of a colour in a channel is its share: the channel in proportion to the opacity. A colour laid over another
hides a part of its shares, as large as its own opacity, and adds its own. Shares determine a colour that is settled:
one whose opacity is a proportion and which is `clear` if it has none. Laying over always gives such a colour, so what
is true of shares is true of layers; above all, it does not matter which of several layers are put together first.

Colours within `[0, 1]` stay there: a channel of two layers is a mean of the channels of both. On these colours nothing
is clamped and nothing divided by zero.

Main results: `share_onto`, `Settled.ext_share`, `onto_assoc`, `clear_onto`, `InUnit.onto`, `InUnit.le_onto`,
`InUnit.unclampedOnto?_eq`, `InUnit.levels_eq`.
-/
namespace HomeWidget

open Scalar

namespace Rgba

/-! ## §1. Opacities -/

/-- How much of what lies below it a colour hides. -/
def opacity (c : Rgba Rat) : Rat := min (max 0 c.a) 1

/-- How much two layers hide together: what the upper one does, and of the rest what the lower one does. -/
def opacityOver (c d : Rgba Rat) : Rat := c.opacity + d.opacity * (1 - c.opacity)

/-- An opacity is not negative. -/
theorem opacity_nonneg (c : Rgba Rat) : 0 ≤ c.opacity := le_min (le_max_left 0 c.a) zero_le_one

/-- An opacity is not above one. -/
theorem opacity_le_one (c : Rgba Rat) : c.opacity ≤ 1 := min_le_right _ _

/-- An opacity is the alpha channel where that lies between zero and one. -/
theorem opacity_eq_of_mem {c : Rgba Rat} (hlow : 0 ≤ c.a) (hhigh : c.a ≤ 1) : c.opacity = c.a := by
  unfold opacity
  rw [max_eq_right hlow, min_eq_left hhigh]

@[simp]
theorem opacity_clear : (clear : Rgba Rat).opacity = 0 := by
  have ha : (clear : Rgba Rat).a = 0 := zero_eq
  rw [opacity_eq_of_mem ha.ge (ha.trans_le zero_le_one), ha]

/-- The lower layer can only add to what the upper one hides. -/
theorem opacity_le_opacityOver (c d : Rgba Rat) : c.opacity ≤ c.opacityOver d :=
  le_add_of_nonneg_right (mul_nonneg d.opacity_nonneg (sub_nonneg.2 c.opacity_le_one))

/-- The upper layer hides no more than it adds. -/
theorem opacity_le_opacityOver_right (c d : Rgba Rat) : d.opacity ≤ c.opacityOver d := by
  have hadded : 0 ≤ c.opacity * (1 - d.opacity) := mul_nonneg c.opacity_nonneg (sub_nonneg.2 d.opacity_le_one)
  unfold opacityOver
  linarith

/-- Laid over one another, colours are at most opaque. -/
theorem opacityOver_le_one (c d : Rgba Rat) : c.opacityOver d ≤ 1 := by
  have hlet : 0 ≤ (1 - c.opacity) * (1 - d.opacity) :=
    mul_nonneg (sub_nonneg.2 c.opacity_le_one) (sub_nonneg.2 d.opacity_le_one)
  unfold opacityOver
  linarith

/-- Two layers hide nothing only if neither of them does. -/
theorem opacities_eq_zero {c d : Rgba Rat} (h : c.opacityOver d ≤ 0) : c.opacity = 0 ∧ d.opacity = 0 :=
  ⟨le_antisymm ((c.opacity_le_opacityOver d).trans h) c.opacity_nonneg,
    le_antisymm ((c.opacity_le_opacityOver_right d).trans h) d.opacity_nonneg⟩

/-! ## §2. Shares -/

/-- What is seen of a colour in a channel. -/
def share (c : Rgba Rat) : Channel → Rat
  | .red => c.r * c.opacity
  | .green => c.g * c.opacity
  | .blue => c.b * c.opacity
  | .opacity => c.opacity

/-- A channel of two layers: the mean of both channels, each with the weight of what is seen of its colour. -/
def blend (c d : Rgba Rat) (x y : Rat) : Rat := (x * c.opacity + y * (d.opacity * (1 - c.opacity))) / c.opacityOver d

/-- A colour over another, spelled out: nothing if both are clear, else a blend in each channel. -/
theorem onto_eq (c d : Rgba Rat) : c.onto d =
    if c.opacityOver d ≤ 0 then clear
    else ⟨c.blend d c.r d.r, c.blend d c.g d.g, c.blend d c.b d.b, c.opacityOver d⟩ := by
  unfold onto
  rw [clampUnit_eq, clampUnit_eq, one_eq, zero_eq]
  rfl

/-- Clear over clear is clear. -/
theorem onto_of_nonpos {c d : Rgba Rat} (h : c.opacityOver d ≤ 0) : c.onto d = clear := by
  rw [onto_eq, if_pos h]

/-- Over or under anything that is not clear a colour is blended. -/
theorem onto_of_pos {c d : Rgba Rat} (h : 0 < c.opacityOver d) :
    c.onto d = ⟨c.blend d c.r d.r, c.blend d c.g d.g, c.blend d c.b d.b, c.opacityOver d⟩ := by
  rw [onto_eq, if_neg (not_le.2 h)]

/-- The opacity of two layers is what they hide together. -/
theorem a_onto (c d : Rgba Rat) : (c.onto d).a = c.opacityOver d := by
  rcases le_or_gt (c.opacityOver d) 0 with h | h
  · rw [onto_of_nonpos h]
    exact zero_eq.trans (le_antisymm (c.opacity_nonneg.trans (c.opacity_le_opacityOver d)) h)
  · rw [onto_of_pos h]

/-- The result is as opaque as its alpha channel says. -/
theorem opacity_onto (c d : Rgba Rat) : (c.onto d).opacity = c.opacityOver d := by
  have hlow : 0 ≤ c.opacityOver d := c.opacity_nonneg.trans (c.opacity_le_opacityOver d)
  have ha := a_onto c d
  rw [opacity_eq_of_mem (ha ▸ hlow) (ha ▸ c.opacityOver_le_one d), ha]

/-- **What is seen of two layers**: the upper one, and of the lower one what the upper one does not hide. -/
theorem share_onto (c d : Rgba Rat) (k : Channel) :
    (c.onto d).share k = c.share k + d.share k * (1 - c.opacity) := by
  rcases le_or_gt (c.opacityOver d) 0 with h | h
  · -- nothing is seen of either
    obtain ⟨hc, hd⟩ := opacities_eq_zero h
    rw [onto_of_nonpos h]
    cases k <;> simp [share, hc, hd]
  · have hblend (x y : Rat) : c.blend d x y * c.opacityOver d = x * c.opacity + y * d.opacity * (1 - c.opacity) := by
      unfold blend
      rw [div_mul_cancel₀ _ h.ne', mul_assoc y]
    have hopacity := opacity_onto c d
    rw [onto_of_pos h] at hopacity ⊢
    cases k with
    | red =>
      show c.blend d c.r d.r * _ = _
      rw [hopacity, hblend]
      rfl
    | green =>
      show c.blend d c.g d.g * _ = _
      rw [hopacity, hblend]
      rfl
    | blue =>
      show c.blend d c.b d.b * _ = _
      rw [hopacity, hblend]
      rfl
    | opacity => exact hopacity

/-! ## §3. Settled colours -/

/-- The opacity is a proportion, and a colour without opacity has no channels either. -/
structure Settled (c : Rgba Rat) : Prop where
  nonneg : 0 ≤ c.a
  le_one : c.a ≤ 1
  eq_clear : c.a = 0 → c = clear

theorem settled_clear : (clear : Rgba Rat).Settled where
  nonneg := zero_eq.ge
  le_one := zero_eq.trans_le zero_le_one
  eq_clear _ := rfl

theorem settled_of_pos {c : Rgba Rat} (hpos : 0 < c.a) (hle : c.a ≤ 1) : c.Settled where
  nonneg := hpos.le
  le_one := hle
  eq_clear h := absurd h hpos.ne'

/-- **What is blended is settled**, whatever it was blended from. -/
theorem settled_onto (c d : Rgba Rat) : (c.onto d).Settled where
  nonneg := a_onto c d ▸ c.opacity_nonneg.trans (c.opacity_le_opacityOver d)
  le_one := a_onto c d ▸ c.opacityOver_le_one d
  eq_clear h := onto_of_nonpos (a_onto c d ▸ h.le)

/-- Of a settled colour the alpha channel is the opacity. -/
theorem Settled.opacity_eq {c : Rgba Rat} (h : c.Settled) : c.opacity = c.a := opacity_eq_of_mem h.nonneg h.le_one

/-- **What is seen of a settled colour determines it.** -/
theorem Settled.ext_share {c d : Rgba Rat} (hc : c.Settled) (hd : d.Settled) (h : ∀ k, c.share k = d.share k) :
    c = d := by
  have ha : c.a = d.a := by
    rw [← hc.opacity_eq, ← hd.opacity_eq]
    exact h .opacity
  by_cases hzero : c.a = 0
  · rw [hc.eq_clear hzero, hd.eq_clear (ha ▸ hzero)]
  · have hcancel {x y : Rat} (hxy : x * c.opacity = y * d.opacity) : x = y := by
      rw [hc.opacity_eq, hd.opacity_eq, ← ha] at hxy
      exact mul_right_cancel₀ hzero hxy
    refine ext_channel fun k => ?_
    cases k with
    | red => exact hcancel (h .red)
    | green => exact hcancel (h .green)
    | blue => exact hcancel (h .blue)
    | opacity => exact ha

/-- **It does not matter which of three layers are put together first.** -/
theorem onto_assoc (c d e : Rgba Rat) : (c.onto d).onto e = c.onto (d.onto e) := by
  refine (settled_onto _ _).ext_share (settled_onto _ _) fun k => ?_
  rw [share_onto, share_onto, share_onto, share_onto, opacity_onto]
  unfold opacityOver
  ring

/-- Nothing laid over a settled colour leaves it as it is. -/
theorem clear_onto {d : Rgba Rat} (h : d.Settled) : clear.onto d = d := by
  have hnothing (k : Channel) : (clear : Rgba Rat).share k = 0 := by
    cases k <;> simp [share]
  refine (settled_onto _ _).ext_share h fun k => ?_
  rw [share_onto, hnothing, opacity_clear, sub_zero, mul_one, zero_add]

/-! ## §4. Colours within range -/

/-- Every channel lies within `[0, 1]`. -/
def InUnit (c : Rgba Rat) : Prop := ∀ k, 0 ≤ c.channel k ∧ c.channel k ≤ 1

instance (c : Rgba Rat) : Decidable c.InUnit :=
  decidable_of_iff ((0 ≤ c.r ∧ c.r ≤ 1) ∧ (0 ≤ c.g ∧ c.g ≤ 1) ∧ (0 ≤ c.b ∧ c.b ≤ 1) ∧ 0 ≤ c.a ∧ c.a ≤ 1)
    ⟨fun ⟨hr, hg, hb, ha⟩ => fun | .red => hr | .green => hg | .blue => hb | .opacity => ha,
      fun h => ⟨h .red, h .green, h .blue, h .opacity⟩⟩

variable {c d : Rgba Rat}

/-- Of a colour with channels between zero and one the alpha channel is the opacity. -/
theorem InUnit.opacity_eq (h : c.InUnit) : c.opacity = c.a :=
  opacity_eq_of_mem (h .opacity).1 (h .opacity).2

/-- Such a channel is not changed by the clamp. -/
theorem InUnit.clampUnit_channel (h : c.InUnit) (k : Channel) : clampUnit (c.channel k) = c.channel k :=
  clampUnit_eq_self (h k).1 (h k).2

/-- The clear colour has channels between zero and one. -/
theorem inUnit_clear : (clear : Rgba Rat).InUnit := by
  intro k
  have hzero : (clear : Rgba Rat).channel k = 0 := by
    cases k <;> exact zero_eq
  rw [hzero]
  exact ⟨le_rfl, zero_le_one⟩

/-- The levels of a byte are within range. -/
theorem inUnit_ofLevels (r g b a : UInt8) : (ofLevels r.toNat g.toNat b.toNat a.toNat : Rgba Rat).InUnit := by
  have hlevel (n : UInt8) : 0 ≤ (ofLevel n.toNat : Rat) ∧ (ofLevel n.toNat : Rat) ≤ 1 := by
    have hlow : (0 : Rat) ≤ n.toNat := Nat.cast_nonneg _
    have hhigh : (n.toNat : Rat) ≤ 255 := by
      exact_mod_cast Nat.le_of_lt_succ n.toNat_lt
    have heq : (ofLevel n.toNat : Rat) = n.toNat / 255 := by
      show (n.toNat : Rat) / 255.0 = _
      norm_num
    rw [heq]
    constructor <;> linarith
  intro k
  cases k with
  | red => exact hlevel r
  | green => exact hlevel g
  | blue => exact hlevel b
  | opacity => exact hlevel a

/-- A mean of two channels lies where they do. -/
theorem blend_mem {x y : Rat} (hx : 0 ≤ x ∧ x ≤ 1) (hy : 0 ≤ y ∧ y ≤ 1) (h : 0 < c.opacityOver d) :
    0 ≤ c.blend d x y ∧ c.blend d x y ≤ 1 := by
  have hupper : 0 ≤ c.opacity := c.opacity_nonneg
  have hlower : 0 ≤ d.opacity * (1 - c.opacity) := mul_nonneg d.opacity_nonneg (sub_nonneg.2 c.opacity_le_one)
  constructor
  · exact div_nonneg (add_nonneg (mul_nonneg hx.1 hupper) (mul_nonneg hy.1 hlower)) h.le
  · refine (div_le_one h).2 ?_
    exact add_le_add (mul_le_of_le_one_left hupper hx.2) (mul_le_of_le_one_left hlower hy.2)

/-- **Two layers within range are within range.** -/
theorem InUnit.onto (hc : c.InUnit) (hd : d.InUnit) : (c.onto d).InUnit := by
  rcases le_or_gt (c.opacityOver d) 0 with h | h
  · rw [onto_of_nonpos h]
    exact inUnit_clear
  · rw [onto_of_pos h]
    intro k
    cases k with
    | red => exact blend_mem (hc .red) (hd .red) h
    | green => exact blend_mem (hc .green) (hd .green) h
    | blue => exact blend_mem (hc .blue) (hd .blue) h
    | opacity => exact ⟨h.le, c.opacityOver_le_one d⟩

/-- **What is laid over a colour never takes opacity away.** -/
theorem InUnit.le_onto (hd : d.InUnit) (c : Rgba Rat) : d.a ≤ (c.onto d).a := by
  rw [a_onto, ← hd.opacity_eq]
  exact c.opacity_le_opacityOver_right d

/-! ## §5. Nothing to clamp, nothing to divide by zero -/

/-- A quotient, where there is something to divide by. -/
def divide? (x y : Rat) : Option Rat := if y = 0 then none else some (x / y)

/-- A colour laid over another, without any clamp; none if that would divide by zero. -/
def unclampedOnto? (src dst : Rgba Rat) : Option (Rgba Rat) :=
  let da := dst.a * (1 - src.a)
  let a := src.a + da
  if a ≤ 0 then some clear
  else do
    let r ← divide? (src.r * src.a + dst.r * da) a
    let g ← divide? (src.g * src.a + dst.g * da) a
    let b ← divide? (src.b * src.a + dst.b * da) a
    pure ⟨r, g, b, a⟩

/-- The levels of a colour, without any clamp. -/
def unclampedLevels (c : Rgba Rat) : List UInt8 :=
  [c.r, c.g, c.b, c.a].map fun channel => UInt8.ofNat (toNat (Scalar.round (channel * 255.0)))

theorem divide?_of_pos {x y : Rat} (h : 0 < y) : divide? x y = some (x / y) := if_neg h.ne'

/-- **Within range no clamp alters a value and no quotient is by zero.** -/
theorem InUnit.unclampedOnto?_eq (hc : c.InUnit) (hd : d.InUnit) : c.unclampedOnto? d = some (c.onto d) := by
  unfold unclampedOnto?
  rw [← hc.opacity_eq, ← hd.opacity_eq]
  show (if c.opacityOver d ≤ 0 then some clear else _) = _
  rcases le_or_gt (c.opacityOver d) 0 with h | h
  · rw [if_pos h, onto_of_nonpos h]
  · rw [if_neg (not_le.2 h), onto_of_pos h]
    show (do
      let r ← divide? _ (c.opacityOver d)
      let g ← divide? _ (c.opacityOver d)
      let b ← divide? _ (c.opacityOver d)
      pure (⟨r, g, b, c.opacityOver d⟩ : Rgba Rat)) = _
    rw [divide?_of_pos h, divide?_of_pos h, divide?_of_pos h]
    rfl

/-- So the levels of such a colour are the same without the clamp. -/
theorem InUnit.levels_eq (h : c.InUnit) : c.levels = c.unclampedLevels := by
  have hlevel (k : Channel) : toLevel (c.channel k) = UInt8.ofNat (toNat (Scalar.round (c.channel k * 255.0))) := by
    unfold toLevel
    rw [h.clampUnit_channel k]
  have hchannels : c.levels = [Channel.red, .green, .blue, .opacity].map fun k => toLevel (c.channel k) := rfl
  rw [hchannels, funext hlevel]
  rfl

end Rgba
end HomeWidget
