import HomeWidget.Paint.Gradient

/-!
# Paint

What a surface or a text is filled with: one colour, or a gradient. A colour style is a text; if it starts like a
gradient and is one, it is that gradient, and otherwise it is read as a colour.
-/
namespace HomeWidget

/-- A filling. -/
inductive Paint (α : Type) where
  | solid (color : Rgba α)
  | gradient (gradient : Gradient α)
  deriving BEq, DecidableEq, Repr

/--
How numbers of style texts are read: the scalar of a plain numeral, and the tangent of an angle in degrees.
-/
structure Reading (α : Type) where
  number? : List Char → Option α
  tangent : α → α

/-- The reading into doubles. -/
def Reading.float : Reading Float := ⟨Float.ofPlain?, Float.tangentOfDegrees⟩

/-- The exact reading into rationals, for a given tangent. -/
def Reading.rational (tangent : Rat → Rat) : Reading Rat :=
  ⟨fun text => (Decimal.ofPlain? text).map Decimal.toRat, tangent⟩

namespace Paint

variable {α : Type} [Scalar α]

/-- The gradient that a style text is, if it starts like one. -/
def gradientOf? (reading : Reading α) (text : List Char) : Option (Gradient α) :=
  if (Text.stripStart? Gradient.keyword (Text.trim text)).isSome then
    Gradient.ofText? reading.number? reading.tangent (Text.trim text)
  else none

/-- The filling that a style text names; it always names one. -/
def ofText (reading : Reading α) (text : List Char) : Paint α :=
  match gradientOf? reading text with
  | some g => gradient g
  | none => solid (Rgba.ofText (Text.trim text))

/-- Is it a gradient? -/
def isGradient : Paint α → Bool
  | gradient _ => true
  | solid _ => false

/-- The colour at a point of a rectangle that is filled. -/
@[specialize] def colorAt (paint : Paint α) (rect : Rect α) (p : Point α) : Rgba α :=
  match paint with
  | solid c => c
  | gradient g => g.colorAt rect p

end Paint
end HomeWidget
