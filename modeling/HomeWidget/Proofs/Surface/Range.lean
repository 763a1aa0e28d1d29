import HomeWidget.Proofs.Paint.Blending
import HomeWidget.Proofs.Surface.Canvas

/-!
# Canvases within range

Where every colour that is painted has its channels within `[0, 1]`, so has every pixel, after every primitive: a pixel
of the empty canvas has the levels of bytes, a gradient stays between its two colours, and a colour laid over a pixel
gives a mean of both. So no clamp on the way from the first primitive to the levels of the picture does anything, no
quotient is by zero, and no pixel ever loses opacity.

Main results: `Canvas.Every.paint`, `Canvas.Every.foldl_paint`, `Canvas.inUnit_foldl_paint`, `Canvas.le_paint`,
`canvas_stays_in_range`.
-/
namespace HomeWidget

open Scalar

/-- A gradient between two colours within range has no other colours. -/
theorem Gradient.inUnit_colorAt {g : Gradient Rat} (hfirst : g.first.InUnit) (hsecond : g.second.InUnit) (rect : Rect Rat)
    (p : Point Rat) : (g.colorAt rect p).InUnit := by
  intro k
  have hbetween : (g.colorAt rect p).channel k ∈ Set.uIcc (g.first.channel k) (g.second.channel k) := g.colorAt_mem p k
  rcases Set.mem_uIcc.1 hbetween with ⟨hlow, hhigh⟩ | ⟨hlow, hhigh⟩
  · exact ⟨(hfirst k).1.trans hlow, hhigh.trans (hsecond k).2⟩
  · exact ⟨(hsecond k).1.trans hlow, hhigh.trans (hfirst k).2⟩

namespace Surface

/-! ## §1. What is painted -/

/-- Painting on a background that is given by four bytes, or on none. -/
def PaintSettings.ofBytes (background : Option (UInt8 × UInt8 × UInt8 × UInt8)) (placeholder : Rgba Rat) :
    PaintSettings Rat :=
  ⟨background.map fun (r, g, b, a) => (r.toNat, g.toNat, b.toNat, a.toNat), placeholder⟩

theorem inUnit_empty (background : Option (UInt8 × UInt8 × UInt8 × UInt8)) (placeholder : Rgba Rat) :
    (PaintSettings.ofBytes background placeholder).empty.InUnit := by
  cases background with
  | none => exact Rgba.inUnit_clear
  | some bytes => exact Rgba.inUnit_ofLevels bytes.1 bytes.2.1 bytes.2.2.1 bytes.2.2.2

/-- The colours that a primitive is filled with are within range. -/
def FilledInUnit : Primitive Rat → Prop
  | .fill _ (.solid color) _ => color.InUnit
  | .fill _ (.gradient g) _ => g.first.InUnit ∧ g.second.InUnit
  | .image _ => True
  | .text _ => True
  | .hitRegion _ _ => True

instance (p : Primitive Rat) : Decidable (FilledInUnit p) :=
  match p with
  | .fill _ (.solid color) _ => inferInstanceAs (Decidable color.InUnit)
  | .fill _ (.gradient g) _ => inferInstanceAs (Decidable (g.first.InUnit ∧ g.second.InUnit))
  | .image _ => isTrue trivial
  | .text _ => isTrue trivial
  | .hitRegion _ _ => isTrue trivial

theorem inUnit_colorOver {placeholder : Rgba Rat} (hplaceholder : placeholder.InUnit) {p : Primitive Rat}
    (hp : FilledInUnit p) (c : Point Rat) : (colorOver placeholder p c).InUnit := by
  cases p with
  | fill rect paint cornerRadius =>
    cases paint with
    | solid color => exact hp
    | gradient g => exact Gradient.inUnit_colorAt hp.1 hp.2 rect c
  | image i => exact hplaceholder
  | text run => exact hplaceholder
  | hitRegion rect link => exact hplaceholder

/-! ## §2. One primitive after the other -/

/-- Every pixel has the property. -/
def Canvas.Every {width height : Nat} (P : Rgba Rat → Prop) (canvas : Canvas Rat width height) : Prop :=
  ∀ (x y : Nat) (hx : x < width) (hy : y < height), P canvas[y][x]

section

variable {width height : Nat} {placeholder : Rgba Rat} {canvas : Canvas Rat width height}

section

variable {P : Rgba Rat → Prop} (h : canvas.Every P)

include h

/-- **What a colour of the primitive keeps when it is laid over a pixel**, painting the primitive keeps of a canvas. -/
theorem Canvas.Every.paint {p : Primitive Rat} (hp : ∀ c below, P below → P ((colorOver placeholder p c).onto below)) :
    (canvas.paint placeholder p).Every P := by
  intro x y hx hy
  rw [getElem_paint placeholder canvas p hx hy]
  split
  next => exact hp _ _ (h x y hx hy)
  next => exact h x y hx hy

/-- What each of the primitives keeps of a canvas, all of them keep. -/
theorem Canvas.Every.foldl_paint {primitives : List (Primitive Rat)}
    (hprimitives : ∀ p ∈ primitives, ∀ c below, P below → P ((colorOver placeholder p c).onto below)) :
    (primitives.foldl (Canvas.paint placeholder) canvas).Every P := by
  induction primitives generalizing canvas with
  | nil => exact h
  | cons p rest ih =>
    rw [List.foldl_cons]
    apply ih
    · exact h.paint (hprimitives p List.mem_cons_self)
    · intro q hq
      exact hprimitives q (List.mem_cons_of_mem p hq)

end

/-- **Primitives within range leave the canvas within range**. -/
theorem Canvas.inUnit_foldl_paint (h : canvas.Every Rgba.InUnit) (hplaceholder : placeholder.InUnit)
    {primitives : List (Primitive Rat)} (hprimitives : ∀ p ∈ primitives, FilledInUnit p) :
    (primitives.foldl (Canvas.paint placeholder) canvas).Every Rgba.InUnit := by
  apply h.foldl_paint
  intro p hp c below hbelow
  exact (inUnit_colorOver hplaceholder (hprimitives p hp) c).onto hbelow

/-- A primitive takes opacity from no pixel within range. -/
theorem Canvas.le_paint (h : canvas.Every Rgba.InUnit) (p : Primitive Rat) {x y : Nat} (hx : x < width)
    (hy : y < height) : canvas[y][x].a ≤ (canvas.paint placeholder p)[y][x].a := by
  rw [getElem_paint placeholder canvas p hx hy]
  split
  next => exact (h x y hx hy).le_onto _
  next => exact le_rfl

end

/-- Primitives that come later are painted over the earlier ones. -/
theorem paintAll_append (earlier later : List (Primitive Rat)) (width height : Nat) (settings : PaintSettings Rat) :
    paintAll (earlier ++ later) width height settings
      = later.foldl (Canvas.paint settings.placeholder) (paintAll earlier width height settings) :=
  List.foldl_append

theorem paintAll_take_succ {primitives : List (Primitive Rat)} {n : Nat} {p : Primitive Rat} (h : primitives[n]? = some p)
    (width height : Nat) (settings : PaintSettings Rat) :
    paintAll (primitives.take (n + 1)) width height settings
      = (paintAll (primitives.take n) width height settings).paint settings.placeholder p := by
  rw [List.take_add_one, h, Option.toList_some, paintAll_append]
  rfl

/-! ## §3. The whole way -/

/-- A colour is laid over a pixel, and neither of the clamps on the way alters anything: without them the result is the
same, and no quotient is by zero. -/
structure LaidUnclamped (color before after : Rgba Rat) : Prop where
  upper : clampUnit color.a = color.a
  lower : clampUnit before.a = before.a
  result : after = color.onto before
  unclamped : color.unclampedOnto? before = some after

/-- The pixel has levels, and the clamps on the way to them alter nothing. -/
structure LeveledUnclamped (pixel : Rgba Rat) : Prop where
  channels : ∀ k, clampUnit (pixel.channel k) = pixel.channel k
  levels : pixel.levels = pixel.unclampedLevels

/-- **Canvases stay within range.** If the placeholder, the colours of fillings and the ends of gradients are within
`[0, 1]`, then for every background and after any number of primitives
* every pixel is within `[0, 1]`, and clamps alter none of its levels,
* the next primitive takes no opacity from it,
* and if it covers the pixel, its colour is laid over the pixel without an effect of a clamp and without a quotient by
  zero; otherwise the pixel stays as it is. -/
theorem canvas_stays_in_range (background : Option (UInt8 × UInt8 × UInt8 × UInt8)) (placeholder : Rgba Rat)
    (primitives : List (Primitive Rat)) (width height : Nat) (hplaceholder : placeholder.InUnit)
    (hprimitives : ∀ p ∈ primitives, FilledInUnit p) (n x y : Nat) (hx : x < width) (hy : y < height) :
    let pixel := fun n => (paintAll (primitives.take n) width height (.ofBytes background placeholder))[y][x]
    (pixel n).InUnit ∧ LeveledUnclamped (pixel n)
      ∧ (pixel n).a ≤ (pixel (n + 1)).a
      ∧ ∀ p, primitives[n]? = some p →
          if Covers p (pixelCenter x y) then
            LaidUnclamped (colorOver placeholder p (pixelCenter x y)) (pixel n) (pixel (n + 1))
          else pixel (n + 1) = pixel n := by
  intro pixel
  have hcanvas : (paintAll (primitives.take n) width height (.ofBytes background placeholder)).Every Rgba.InUnit := by
    apply Canvas.inUnit_foldl_paint _ hplaceholder
    · intro p hp
      exact hprimitives p (List.mem_of_mem_take hp)
    · intro x y hx hy
      rw [getElem_uniform]
      exact inUnit_empty background placeholder
  have hpixel : (pixel n).InUnit := hcanvas x y hx hy
  have hnext {p : Primitive Rat} (hp : primitives[n]? = some p) :
      pixel (n + 1) = ((paintAll (primitives.take n) width height (.ofBytes background placeholder)).paint
        placeholder p)[y][x] := by
    show (paintAll (primitives.take (n + 1)) width height _)[y][x] = _
    rw [paintAll_take_succ hp]
    rfl
  refine ⟨hpixel, ⟨hpixel.clampUnit_channel, hpixel.levels_eq⟩, ?_, ?_⟩
  · cases hp : primitives[n]? with
    | none =>
      -- nothing is left to be painted
      have hall := List.getElem?_eq_none_iff.1 hp
      show (paintAll (primitives.take n) _ _ _)[y][x].a ≤ (paintAll (primitives.take (n + 1)) _ _ _)[y][x].a
      rw [List.take_of_length_le hall, List.take_of_length_le (Nat.le_succ_of_le hall)]
    | some p =>
      rw [hnext hp]
      exact Canvas.le_paint hcanvas p hx hy
  · intro p hp
    rw [hnext hp, getElem_paint placeholder _ p hx hy]
    split
    next =>
      have hcolor := inUnit_colorOver hplaceholder (hprimitives p (List.mem_of_getElem? hp)) (pixelCenter x y)
      exact ⟨hcolor.clampUnit_channel .opacity, hpixel.clampUnit_channel .opacity, rfl, hcolor.unclampedOnto?_eq hpixel⟩
    next => rfl

/-- Half clear red on a nearly clear blue background, and over it a gradient that is half clear black in the middle. -/
theorem canvas_stays_in_range_layered :
    let veil : Gradient Rat := .between .top .bottom .clear .black
    let primitives : List (Primitive Rat) :=
      [.fill ⟨0, 0, 1, 1⟩ (.solid ⟨1, 0, 0, 1 / 2⟩) 0, .fill ⟨-1, 0, 2, 1⟩ (.gradient veil) 0]
    let pixel := fun n => (paintAll (primitives.take n) 1 1 (.ofBytes (some (0, 0, 255, 51)) .white))[0][0]
    (∀ p ∈ primitives, FilledInUnit p)
      ∧ LaidUnclamped ⟨0, 0, 0, 1 / 2⟩ (pixel 1) (pixel 2)
      ∧ pixel 1 = ⟨5 / 6, 0, 1 / 6, 3 / 5⟩ ∧ pixel 2 = ⟨5 / 16, 0, 1 / 16, 4 / 5⟩ := by
  intro veil primitives pixel
  have hprimitives : ∀ p ∈ primitives, FilledInUnit p := by decide +kernel
  obtain ⟨-, -, -, hnext⟩ := canvas_stays_in_range (some (0, 0, 255, 51)) .white primitives 1 1 (by decide +kernel)
    hprimitives 1 0 0 (by decide) (by decide)
  have hcovers : Covers (.fill ⟨-1, 0, 2, 1⟩ (.gradient veil) 0) (pixelCenter 0 0) := by decide +kernel
  have hcolor : colorOver .white (.fill ⟨-1, 0, 2, 1⟩ (.gradient veil) 0) (pixelCenter 0 0) = ⟨0, 0, 0, 1 / 2⟩ := by
    decide +kernel
  have hlaid := hnext (.fill ⟨-1, 0, 2, 1⟩ (.gradient veil) 0) rfl
  rw [if_pos hcovers, hcolor] at hlaid
  exact ⟨hprimitives, hlaid, by decide +kernel, by decide +kernel⟩

end Surface
end HomeWidget
