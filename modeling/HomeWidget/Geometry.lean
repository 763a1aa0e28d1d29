import HomeWidget.Scalar

/-!
# Geometry

Points, sizes and rectangles of a surface, with the vertical coordinate growing downward. A rectangle is kept
by its corners as they were given and may be inverted; what is drawn in it is decided by `Rect.contains`, which is
half open, so that rectangles that share an edge share no point.
-/
namespace HomeWidget

/-- A point of a surface. -/
structure Point (α : Type) where
  x : α
  y : α
  deriving BEq, DecidableEq, Repr

/-- The extent of a surface. -/
structure Size (α : Type) where
  width : α
  height : α
  deriving BEq, DecidableEq, Repr

/-- A rectangle by two opposite corners. -/
structure Rect (α : Type) where
  x0 : α
  y0 : α
  x1 : α
  y1 : α
  deriving BEq, DecidableEq, Repr

/-- A point relative to a rectangle: `(0, 0)` is its top left corner and `(1, 1)` its bottom right one. -/
structure UnitPoint (α : Type) where
  x : α
  y : α
  deriving BEq, DecidableEq, Repr

variable {α : Type} [Scalar α]

open Scalar

/-! ## §1. Rectangles -/

namespace Rect

/-- From the left edge to the right one; negative when they are inverted. -/
@[specialize] def width (r : Rect α) : α := r.x1 - r.x0

/-- From the top edge to the bottom one. -/
@[specialize] def height (r : Rect α) : α := r.y1 - r.y0

/-- The middle. -/
@[specialize] def center (r : Rect α) : Point α := ⟨0.5 * (r.x0 + r.x1), 0.5 * (r.y0 + r.y1)⟩

/-- The same corners, the top left one first. -/
@[specialize] def sorted (r : Rect α) : Rect α :=
  ⟨least r.x0 r.x1, least r.y0 r.y1, greatest r.x0 r.x1, greatest r.y0 r.y1⟩

/-- The rectangle from the origin with the given extent; a negative extent lies left of or above it. -/
@[specialize] def ofSize (size : Size α) : Rect α :=
  sorted ⟨0.0, 0.0, 0.0 + size.width, 0.0 + size.height⟩

/-- Inside, or on the top or left edge. -/
@[specialize] def contains (r : Rect α) (p : Point α) : Bool :=
  r.x0 ≤ p.x && p.x < r.x1 && r.y0 ≤ p.y && p.y < r.y1

/-- What two rectangles share; without extent when they share nothing. -/
@[specialize] def intersect (r s : Rect α) : Rect α :=
  let x0 := greatest r.x0 s.x0
  let y0 := greatest r.y0 s.y0
  -- the right and the lower edge are never before the left and the upper one
  ⟨x0, y0, greatest (least r.x1 s.x1) x0, greatest (least r.y1 s.y1) y0⟩

/-- The rectangle moved in by `d` on every side, as far as its middle. A negative `d` moves nothing. -/
@[specialize] def inset (r : Rect α) (d : α) : Rect α :=
  if !isFinite d || d ≤ 0.0 then r
  else
    let c := r.center
    ⟨least (r.x0 + d) c.x, least (r.y0 + d) c.y, greatest (r.x1 - d) c.x, greatest (r.y1 - d) c.y⟩

/--
Inside the rectangle with its corners rounded to quarter circles. The corners are sorted, and the radius is at most
half of the shorter side; a point is measured from the nearest point of the rectangle of corner centres.
-/
@[specialize] def roundedContains (r : Rect α) (radius : α) (p : Point α) : Bool :=
  let r := r.sorted
  let radius := least (abs radius) (least r.width r.height / 2.0)
  let c := r.center
  -- how far a point lies outside the rectangle of corner centres, along one axis
  let beyond (offset extent : α) : α := greatest (abs offset - greatest (extent / 2.0 - radius) 0.0) 0.0
  let dx := beyond (p.x - c.x) r.width
  let dy := beyond (p.y - c.y) r.height
  dx * dx + dy * dy ≤ radius * radius

/-- Strictly inside the largest circle about the middle that the rectangle holds. -/
@[specialize] def circleContains (r : Rect α) (p : Point α) : Bool :=
  let c := r.center
  let radius := least r.width r.height / 2.0
  let dx := p.x - c.x
  let dy := p.y - c.y
  dx * dx + dy * dy < radius * radius

end Rect

/-! ## §2. Unit points -/

namespace UnitPoint

/-- The middle of the top edge. -/
def top : UnitPoint α := ⟨0.5, 0.0⟩

/-- The middle of the bottom edge. -/
def bottom : UnitPoint α := ⟨0.5, 1.0⟩

/-- The point of a rectangle that lies at a unit point. -/
@[specialize] def within (u : UnitPoint α) (r : Rect α) : Point α :=
  ⟨r.x0 + u.x * r.width, r.y0 + u.y * r.height⟩

/-- On an edge of the unit square, up to a tolerance. -/
@[specialize] def onBoundary (u : UnitPoint α) (tolerance : α) : Bool :=
  let inside (t : α) : Bool := -tolerance ≤ t && t ≤ 1.0 + tolerance
  let atEdge (t : α) : Bool := abs t ≤ tolerance || abs (t - 1.0) ≤ tolerance
  inside u.x && inside u.y && (atEdge u.x || atEdge u.y)

end UnitPoint
end HomeWidget
