import HomeWidget.Surface.Primitive

/-!
# Painting a surface

Primitives are painted on a canvas of pixels, one after the other, each over what is there. A primitive covers a
pixel if it covers its centre, so edges are not smoothed. Fillings are painted as they are; an image, which is never
fetched, is a flat placeholder in its mask; texts and areas to activate are not painted.

Only the pixels of the span that a primitive can reach are looked at. The canvas knows its width and height, so
no pixel outside it can be named.
-/
namespace HomeWidget.Surface

variable {α : Type} [Scalar α]

open Scalar

/-! ## §1. The canvas -/

/-- Rows of pixels. -/
abbrev Canvas (α : Type) (width height : Nat) := Vector (Vector (Rgba α) width) height

/-- The centre of a pixel. -/
@[specialize] def pixelCenter (x y : Nat) : Point α := ⟨Scalar.ofNat x + 0.5, Scalar.ofNat y + 0.5⟩

/-- The first pixel that a span between two positions reaches, and the one after the last, on an axis of `limit`. -/
@[specialize] def pixelSpan (low high : α) (limit : Nat) : Nat × Nat :=
  let within (position : α) : Nat := toNat (clamp 0.0 (Scalar.ofNat limit) position)
  (within (floor low), within (ceil high))

/-- Lays `color p` over every pixel whose centre `p` is inside `bounds`, `clip` and the shape. -/
@[specialize] def Canvas.paintWhere {width height : Nat} (canvas : Canvas α width height) (bounds clip : Rect α)
    (inside : Point α → Bool) (color : Point α → Rgba α) : Canvas α width height :=
  let area := bounds.intersect clip
  if area.width ≤ 0.0 ∨ area.height ≤ 0.0 then canvas
  else
    let (left, right) := pixelSpan area.x0 area.x1 width
    let (top, bottom) := pixelSpan area.y0 area.y1 height
    -- rows and pixels outside the span are handed on as they are
    canvas.mapIdx fun y row =>
      if top ≤ y ∧ y < bottom then
        row.mapIdx fun x pixel =>
          if left ≤ x ∧ x < right then
            let p := pixelCenter x y
            if clip.contains p && inside p then (color p).onto pixel else pixel
          else pixel
      else row

/-! ## §2. Primitives -/

/-- How a surface is painted. -/
structure PaintSettings (α : Type) where
  /-- The levels of the empty canvas; clear if there are none. -/
  background : Option (Nat × Nat × Nat × Nat)
  /-- What stands for an image. -/
  placeholder : Rgba α
  deriving Repr

/-- A clear canvas, and a grey placeholder. -/
def PaintSettings.usual : PaintSettings α := ⟨none, ⟨0.55, 0.57, 0.6, 1.0⟩⟩

/-- The colour of the empty canvas. -/
def PaintSettings.empty (settings : PaintSettings α) : Rgba α :=
  match settings.background with
  | some (r, g, b, a) => Rgba.ofLevels r g b a
  | none => Rgba.clear

/-- Inside the shape of an image in its frame. -/
def maskContains (mask : ImageMask) (frame : Rect α) (p : Point α) : Bool :=
  match mask with
  | .rectangle => frame.contains p
  | .circle => frame.circleContains p

/-- One primitive, painted. -/
@[specialize] def Canvas.paint {width height : Nat} (placeholder : Rgba α) (canvas : Canvas α width height) :
    Primitive α → Canvas α width height
  | .fill rect paint cornerRadius =>
    let radius := greatest cornerRadius 0.0
    canvas.paintWhere rect rect (rect.roundedContains radius) (paint.colorAt rect)
  | .image i => canvas.paintWhere i.frame i.clip (maskContains i.mask i.frame) fun _ => placeholder
  | .text _ => canvas
  | .hitRegion _ _ => canvas

/-- A list of primitives, painted on an empty canvas. -/
@[specialize] def paintAll (primitives : List (Primitive α)) (width height : Nat) (settings : PaintSettings α) :
    Canvas α width height :=
  primitives.foldl (Canvas.paint settings.placeholder)
    (Vector.replicate height (Vector.replicate width settings.empty))

/-! ## §3. Pictures -/

/-- A picture: rows of pixels with four levels each. -/
structure Picture where
  width : Nat
  height : Nat
  rows : List (List (List UInt8))
  deriving BEq, Repr

/-- The bytes of a picture, row by row. -/
def Picture.bytes (p : Picture) : List UInt8 := p.rows.flatMap List.flatten

/-- A picture must have at least one pixel. -/
inductive PictureError where
  | empty
  deriving DecidableEq, Repr

/-- The error, in words. -/
def PictureError.message : PictureError → String
  | empty => "validation error: raster size must be non-zero"

/-- The levels of a canvas. -/
def Canvas.toPicture {width height : Nat} (canvas : Canvas α width height) : Picture :=
  ⟨width, height, canvas.toList.map fun row => row.toList.map Rgba.levels⟩

/-- The picture that primitives make. -/
def rasterize (primitives : List (Primitive α)) (width height : Nat) (settings : PaintSettings α) :
    Except PictureError Picture :=
  if width = 0 ∨ height = 0 then .error .empty
  else .ok (paintAll primitives width height settings).toPicture

end HomeWidget.Surface
