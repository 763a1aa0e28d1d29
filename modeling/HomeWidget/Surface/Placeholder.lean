import HomeWidget.Surface.Primitive

/-!
# Placeholders

Two surfaces that need no definition: a framed question mark for a layout that does not exist, and an invitation
to configure a widget that has none.
-/
namespace HomeWidget.Surface

variable {α : Type} [Scalar α]

open Scalar

/-- The colour scheme around a surface. -/
inductive Appearance where
  | light
  | dark
  deriving DecidableEq, Repr

/-- A text in the middle of a box. -/
def centeredText (rect : Rect α) (text : String) (color : Rgba α) (weight : FontWeight) (size : α) : TextRun α :=
  { rect, clip := rect, text, paint := .solid color, font := .system, weight, size, minScaleFactor := 1.0,
    textAlign := .center, boxAlign := .center }

/-! ## §1. The unknown layout -/

/-- How far the inner frame of the unknown layout is set in; also the radius of its corners. -/
def frameInset : α := 8.0

/-- The point size of the question mark. -/
def glyphSize : α := 72.0

/-- A frame in two tones and a bold question mark, drawn where a layout does not exist. -/
def unknownLayout (target : Size α) (appearance : Appearance) : List (Primitive α) :=
  let surface := Rect.ofSize target
  let (outer, inner) : Rgba α × Rgba α :=
    match appearance with
    | .light => (Rgba.black, Rgba.white)
    | .dark => (Rgba.white, Rgba.black)
  [.fill surface (.solid outer) 0.0,
   .fill (surface.inset frameInset) (.solid inner) frameInset,
   .text (centeredText surface "?" outer .bold glyphSize)]

/-! ## §2. The invitation to configure -/

/-- The line below the title. -/
def configureHint : String := "Tap and hold and choose Edit Widget"

/-- The title; short where there is little room. -/
def configureTitle : SizeClass → String
  | .small => "Configure"
  | .unknown => "Configure"
  | _ => "Configure Widget"

/-- The background: two blues from the bottom to the top. -/
def configureGradient : Gradient α :=
  Gradient.between UnitPoint.bottom UnitPoint.top (Rgba.ofText "#1961DF".toList) (Rgba.ofText "#16B2EA".toList)

/-- The room to the left and to the right of the texts. -/
def configureMargin : α := 30.0

/-- The point size of the title. -/
def titleSize : α := 28.0

/-- The point size of the line below the title. -/
def hintSize : α := 16.0

/-- The height of a line for each point of its size. -/
def lineHeight : α := 1.2

/-- The surface of an entry without a layout: a title and a hint, with equal gaps above, between and below them. -/
def configure (size : SizeClass) (target : Size α) : List (Primitive α) :=
  let titleHeight : α := titleSize * lineHeight
  let hintHeight : α := hintSize * lineHeight
  let gap := greatest ((target.height - titleHeight - hintHeight) / 3.0) 0.0
  -- on a surface too narrow for margins both edges of the texts are its middle
  let x0 := least configureMargin (target.width / 2.0)
  let x1 := greatest (target.width - configureMargin) (target.width / 2.0)
  let titleBox : Rect α := ⟨x0, gap, x1, gap + titleHeight⟩
  let hintBox : Rect α := ⟨x0, 2.0 * gap + titleHeight, x1, 2.0 * gap + titleHeight + hintHeight⟩
  [.fill (Rect.ofSize target) (.gradient configureGradient) 0.0,
   .text (centeredText titleBox (configureTitle size) Rgba.white .medium titleSize),
   .text (centeredText hintBox configureHint Rgba.white .medium hintSize)]

end HomeWidget.Surface
