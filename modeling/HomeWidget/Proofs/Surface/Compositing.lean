import HomeWidget.Proofs.Surface.Range

/-!
# Painting in parts

Since it does not matter which of several layers are put together first, a run of primitives may be painted by itself
on a clear canvas, and the result laid over whatever is below; in particular a background may be laid below a picture
when it is finished. What is below only has to be settled: painted pixels are, and so is every background but one that
has a colour without opacity, which is lost under anything that is laid over it.

Main results: `paint_onto`, `foldl_paint_onto`, `foldl_paint_eq`, `painting_composes`.
-/
namespace HomeWidget.Surface

open Scalar

variable {width height : Nat}

/-! ## §1. A canvas over a canvas -/

/-- A canvas laid over another, pixel by pixel. -/
def Canvas.onto (upper lower : Canvas Rat width height) : Canvas Rat width height :=
  upper.zipWith (fun above below => above.zipWith Rgba.onto below) lower

/-- A canvas on which nothing is painted. -/
def Canvas.blank : Canvas Rat width height := Vector.replicate height (Vector.replicate width Rgba.clear)

@[simp]
theorem Canvas.getElem_onto (upper lower : Canvas Rat width height) {x y : Nat} (hx : x < width) (hy : y < height) :
    (upper.onto lower)[y][x] = upper[y][x].onto lower[y][x] := by
  unfold Canvas.onto
  rw [Vector.getElem_zipWith, Vector.getElem_zipWith]

@[simp]
theorem Canvas.getElem_blank {x y : Nat} (hx : x < width) (hy : y < height) :
    (Canvas.blank : Canvas Rat width height)[y][x] = Rgba.clear :=
  getElem_uniform Rgba.clear hx hy

/-- A canvas is known by its pixels. -/
theorem Canvas.ext_pixel {canvas canvas' : Canvas Rat width height}
    (h : ∀ (x y : Nat) (hx : x < width) (hy : y < height), canvas[y][x] = canvas'[y][x]) : canvas = canvas' := by
  apply Vector.ext
  intro y hy
  apply Vector.ext
  intro x hx
  exact h x y hx hy

/-- **A primitive is painted on the upper of two canvases.** -/
theorem paint_onto (placeholder : Rgba Rat) (upper lower : Canvas Rat width height) (p : Primitive Rat) :
    (upper.onto lower).paint placeholder p = (upper.paint placeholder p).onto lower := by
  apply Canvas.ext_pixel
  intro x y hx hy
  rw [Canvas.getElem_onto, getElem_paint, getElem_paint, Canvas.getElem_onto]
  split
  next => exact (Rgba.onto_assoc _ _ _).symm
  next => rfl

/-- **Primitives are painted on the upper of two canvases.** -/
theorem foldl_paint_onto (placeholder : Rgba Rat) (primitives : List (Primitive Rat))
    (upper lower : Canvas Rat width height) :
    primitives.foldl (Canvas.paint placeholder) (upper.onto lower)
      = (primitives.foldl (Canvas.paint placeholder) upper).onto lower := by
  induction primitives generalizing upper with
  | nil => rfl
  | cons p rest ih => rw [List.foldl_cons, List.foldl_cons, paint_onto, ih]

/-! ## §2. Settled canvases -/

/-- A blank canvas over a settled one hides nothing. -/
theorem blank_onto {lower : Canvas Rat width height} (h : lower.Every Rgba.Settled) : Canvas.blank.onto lower = lower := by
  apply Canvas.ext_pixel
  intro x y hx hy
  rw [Canvas.getElem_onto, Canvas.getElem_blank]
  exact Rgba.clear_onto (h x y hx hy)

/-- **What is painted on a settled canvas may as well be painted by itself**, and laid over it. -/
theorem foldl_paint_eq (placeholder : Rgba Rat) (primitives : List (Primitive Rat)) {lower : Canvas Rat width height}
    (h : lower.Every Rgba.Settled) :
    primitives.foldl (Canvas.paint placeholder) lower
      = (primitives.foldl (Canvas.paint placeholder) Canvas.blank).onto lower := by
  rw [← foldl_paint_onto, blank_onto h]

/-- A background with some opacity is settled, and so is none. -/
theorem settled_empty {background : Option (UInt8 × UInt8 × UInt8 × UInt8)}
    (h : ∀ r g b, background ≠ some (r, g, b, 0)) (placeholder : Rgba Rat) :
    (PaintSettings.ofBytes background placeholder).empty.Settled := by
  match background with
  | none => exact Rgba.settled_clear
  | some (r, g, b, a) =>
    have ha : 0 < a.toNat := by
      apply Nat.pos_of_ne_zero
      intro hzero
      obtain rfl : a = 0 := UInt8.toNat_inj.1 hzero
      exact h r g b rfl
    refine Rgba.settled_of_pos ?_ (Rgba.inUnit_ofLevels r g b a .opacity).2
    show 0 < (a.toNat : Rat) / 255.0
    exact div_pos (Nat.cast_pos.2 ha) (by norm_num)

/-! ## §3. Backgrounds and runs -/

section

variable {background : Option (UInt8 × UInt8 × UInt8 × UInt8)} (h : ∀ r g b, background ≠ some (r, g, b, 0))
  (placeholder : Rgba Rat)

include h

theorem settled_paintAll (primitives : List (Primitive Rat)) :
    (paintAll primitives width height (.ofBytes background placeholder)).Every Rgba.Settled := by
  apply Canvas.Every.foldl_paint
  · intro x y hx hy
    rw [getElem_uniform]
    exact settled_empty h placeholder
  · intro p _ c below _
    exact Rgba.settled_onto _ _

/-- **Primitives that come later** may be painted by themselves on no background, and be laid over the earlier ones. -/
theorem paintAll_append_eq_onto (earlier later : List (Primitive Rat)) :
    paintAll (earlier ++ later) width height (.ofBytes background placeholder)
      = (paintAll later width height (.ofBytes none placeholder)).onto
          (paintAll earlier width height (.ofBytes background placeholder)) := by
  rw [paintAll_append]
  exact foldl_paint_eq placeholder later (settled_paintAll h placeholder earlier)

end

/-- **Painting composes.** For all primitives, on a canvas of any size and with any placeholder:
* on a background with some opacity, a pixel is the pixel that is painted on no background, laid over the colour of the
  background;
* a colour may be laid over two others at once or one after the other, whatever the three colours are;
* so every run of the primitives may be painted by itself on no background and then be laid over what is below it. -/
theorem painting_composes (placeholder : Rgba Rat) (primitives : List (Primitive Rat)) (width height : Nat) :
    (∀ r g b a : UInt8, a ≠ 0 → ∀ (x y : Nat) (hx : x < width) (hy : y < height),
        (paintAll primitives width height (.ofBytes (some (r, g, b, a)) placeholder))[y][x]
          = (paintAll primitives width height (.ofBytes none placeholder))[y][x].onto
              (.ofLevels r.toNat g.toNat b.toNat a.toNat))
      ∧ (∀ c d e : Rgba Rat, (c.onto d).onto e = c.onto (d.onto e))
      ∧ ∀ background, (∀ r g b, background ≠ some (r, g, b, 0)) →
          ∀ before run after, primitives = before ++ run ++ after →
            paintAll primitives width height (.ofBytes background placeholder)
              = after.foldl (Canvas.paint placeholder)
                  ((paintAll run width height (.ofBytes none placeholder)).onto
                    (paintAll before width height (.ofBytes background placeholder))) := by
  refine ⟨?_, Rgba.onto_assoc, ?_⟩
  · intro r g b a ha x y hx hy
    have hbackground : ∀ r' g' b', some (r, g, b, a) ≠ some (r', g', b', (0 : UInt8)) := by
      intro r' g' b' h
      simp only [Option.some.injEq, Prod.mk.injEq] at h
      exact ha h.2.2.2
    -- nothing is painted earlier, so that what is below is the background itself
    have hbelow : (paintAll [] width height (.ofBytes (some (r, g, b, a)) placeholder))[y][x]
        = Rgba.ofLevels r.toNat g.toNat b.toNat a.toNat :=
      getElem_paintAll [] _ hx hy
    have hcanvas : paintAll primitives width height (.ofBytes (some (r, g, b, a)) placeholder) = _ :=
      paintAll_append_eq_onto hbackground placeholder [] primitives
    rw [hcanvas, Canvas.getElem_onto, hbelow]
  · intro background hbackground before run after hprimitives
    rw [hprimitives, ← paintAll_append_eq_onto hbackground placeholder before run]
    exact paintAll_append _ _ _ _ _

/-- On a nearly clear blue background: half clear red in the left of two pixels, a placeholder in both, and a colour out of
range in the right one. The placeholder is a run by itself. -/
theorem painting_composes_veiled :
    let red : Primitive Rat := .fill ⟨0, 0, 1, 1⟩ (.solid ⟨1, 0, 0, 1 / 2⟩) 0
    let image : Primitive Rat := .image ⟨⟨0, 0, 2, 1⟩, ⟨0, 0, 2, 1⟩, "", .rectangle⟩
    let glare : Primitive Rat := .fill ⟨1, 0, 2, 1⟩ (.solid ⟨3, 0, 0, 2⟩) 0
    let background : Option (UInt8 × UInt8 × UInt8 × UInt8) := some (0, 0, 255, 51)
    let placeholder : Rgba Rat := ⟨0, 0, 0, 1 / 2⟩
    let painted := fun background primitives => paintAll primitives 2 1 (.ofBytes background placeholder)
    painted background [red, image, glare]
        = (painted none [red, image, glare]).onto (Vector.replicate 1 (Vector.replicate 2 (.ofLevels 0 0 255 51)))
      ∧ painted background [red, image, glare] = #v[#v[⟨5 / 16, 0, 1 / 16, 4 / 5⟩, ⟨3, 0, 0, 1⟩]]
      ∧ painted background [red, image, glare]
        = (Canvas.onto (painted none [image]) (painted background [red])).paint placeholder glare := by
  intro red image glare background placeholder painted
  obtain ⟨hpixel, -, hrun⟩ := painting_composes placeholder [red, image, glare] 2 1
  have hbackground : ∀ r g b, background ≠ some (r, g, b, 0) := by
    intro r g b h
    simp [background] at h
  refine ⟨?_, by decide +kernel, hrun background hbackground [red] [image] [glare] rfl⟩
  apply Canvas.ext_pixel
  intro x y hx hy
  rw [Canvas.getElem_onto, getElem_uniform]
  exact hpixel 0 0 255 51 (by decide) x y hx hy

end HomeWidget.Surface
