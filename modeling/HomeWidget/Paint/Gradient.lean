import HomeWidget.Number.Decimal
import HomeWidget.Paint.Color
import HomeWidget.Text.Cut

/-!
# Linear gradients

A gradient runs from one colour to another between two points of the unit square. Written as a text it has an
angle instead, in degrees clockwise from six o'clock; the two points are where the line through the middle at that
angle meets the edge of the square.

`boundaryPoint` finds such a point in a square centred on the origin: within each slot of 45 degrees the edge is
straight, and the distance along it is the tangent of the angle beyond the start of the slot. The tangent is a
parameter, `tangent`, of degrees in `[0, 45)`: geometry needs of it only that it grows from `0` and stays
below `1`.
-/
namespace HomeWidget

open Scalar

/-! ## §1. Angles -/

/-- The tangent of an angle in degrees. -/
def Float.tangentOfDegrees (degrees : Float) : Float := Float.tan (degrees * 0.017453292519943295)

namespace Gradient

variable {α : Type} [Scalar α]

/-- The angle in `[0, 360)` that an angle is up to whole turns; what is not finite counts as `0`. -/
def normalize (degrees : α) : α :=
  if !isFinite degrees then 0.0
  else
    let r := remainder degrees 360.0
    let r := if r < 0.0 then r + 360.0 else r
    -- a negative angle too small to matter may be rounded up to the whole turn
    if (360.0 : α) ≤ r then 0.0 else r

/-- Where the ray at an angle in `[0, 360)` meets the edge of the unit square. -/
def boundaryPoint (tangent : α → α) (angle : α) : UnitPoint α :=
  let t := tangent (remainder angle 45.0)
  let (x, y) : α × α :=
    match toNat (floor (angle / 45.0)) with
    | 0 => (1.0, t)
    | 1 => (1.0 - t, 1.0)
    | 2 => (-t, 1.0)
    | 3 => (-(1.0 : α), 1.0 - t)
    | 4 => (-(1.0 : α), -t)
    | 5 => (-(1.0 : α) + t, -(1.0 : α))
    | 6 => (t, -(1.0 : α))
    | _ => (1.0, -(1.0 : α) + t)
  -- from the square about the origin to the unit square, turned to begin at six o'clock
  ⟨(-y + 1.0) / 2.0, (x + 1.0) / 2.0⟩

/-- The points where a gradient at an angle starts and ends. -/
def points (tangent : α → α) (degrees : α) : UnitPoint α × UnitPoint α :=
  let angle := normalize degrees
  let opposite := if (180.0 : α) ≤ angle then angle - 180.0 else angle + 180.0
  (boundaryPoint tangent angle, boundaryPoint tangent opposite)

end Gradient

/-! ## §2. Gradients -/

/-- A gradient between two colours, stretched over whatever it fills. -/
structure Gradient (α : Type) where
  /-- The angle as it was given; `0` for a gradient given by its points. -/
  degrees : α
  first : Rgba α
  second : Rgba α
  start : UnitPoint α
  stop : UnitPoint α
  deriving BEq, DecidableEq, Repr

namespace Gradient

variable {α : Type} [Scalar α]

/-- The gradient at an angle. -/
def ofAngle (tangent : α → α) (degrees : α) (first second : Rgba α) : Gradient α :=
  let (start, stop) := points tangent degrees
  ⟨degrees, first, second, start, stop⟩

/-- The gradient between two points. -/
def between (start stop : UnitPoint α) (first second : Rgba α) : Gradient α :=
  ⟨0.0, first, second, start, stop⟩

/-- The least squared length of an axis along which colours differ: `2 ^ -52`. -/
def leastAxis : α := 1.0 / 4503599627370496.0

/-- The colour at a point of a rectangle that the gradient fills. -/
@[specialize] def colorAt (g : Gradient α) (rect : Rect α) (p : Point α) : Rgba α :=
  let s := g.start.within rect
  let e := g.stop.within rect
  let dx := e.x - s.x
  let dy := e.y - s.y
  let squared := dx * dx + dy * dy
  -- without an axis there is no way from one colour to the other
  if squared ≤ leastAxis then g.first
  else g.first.lerp g.second (((p.x - s.x) * dx + (p.y - s.y) * dy) / squared)

/-! ## §3. Texts -/

/-- The word that every gradient text starts with. -/
def keyword : List Char := "linear-gradient".toList

/-- What stands between the parentheses of a gradient text. -/
def inner? (text : List Char) : Option (List Char) := do
  let rest ← Text.stripStart? keyword (Text.trim text)
  let rest ← Text.stripStart? ['('] (Text.trimStart rest)
  Text.stripEnd? [')'] rest

/-- The angle that an angle text names; `number?` reads the numeral before the unit. -/
def angleOf? (number? : List Char → Option α) (text : List Char) : Option α := do
  let numeral ← Text.stripEnd? "deg".toList (Text.trim text)
  let degrees ← number? (Text.trimEnd numeral)
  if isFinite degrees then pure degrees else none

/--
The gradient of a text `linear-gradient(<number>deg, <colour>, <colour>)`. The colours are read as any colour
is; a text of any other shape is no gradient.
-/
def ofText? (number? : List Char → Option α) (tangent : α → α) (text : List Char) : Option (Gradient α) := do
  match (← inner? text).splitOn ',' with
  | [angle, first, second] =>
    let degrees ← angleOf? number? angle
    pure (ofAngle tangent degrees (Rgba.ofText first) (Rgba.ofText second))
  | _ => none

end Gradient
end HomeWidget
