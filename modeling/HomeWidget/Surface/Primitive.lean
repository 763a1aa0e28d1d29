import HomeWidget.Definition.Lookup
import HomeWidget.Link.Basic
import HomeWidget.Paint.Basic

/-!
# Drawing primitives

A laid out surface is a list of primitives, to be painted in order: fillings, images, texts, and areas that can be
activated. Everything a host needs is resolved: positions are in pixels, and no name is left to be looked up.
-/
namespace HomeWidget

/-- The shape that an image is drawn in. -/
inductive ImageMask where
  | rectangle
  /-- The largest circle about the middle of the frame. -/
  | circle
  deriving DecidableEq, Repr

/-- The side of a box to which lines are set. -/
inductive Align where
  | leading
  | center
  | trailing
  deriving DecidableEq, Repr

/-- The font of a text. -/
inductive FontFamily where
  | system
  | named (family : String)
  deriving DecidableEq, Repr

/-- An image that covers its frame. -/
structure ImagePlacement (α : Type) where
  frame : Rect α
  /-- Nothing is drawn outside it. -/
  clip : Rect α
  source : String
  mask : ImageMask
  deriving BEq, DecidableEq, Repr

/-- A text in one style. -/
structure TextRun (α : Type) where
  rect : Rect α
  /-- Nothing is drawn outside it. -/
  clip : Rect α
  text : String
  paint : Paint α
  font : FontFamily
  weight : FontWeight
  size : α
  minScaleFactor : α
  /-- Of the lines within the text. -/
  textAlign : Align
  /-- Of the text within its box. -/
  boxAlign : Align
  deriving BEq, DecidableEq, Repr

/-- One item of a laid out surface. -/
inductive Primitive (α : Type) where
  | fill (rect : Rect α) (paint : Paint α) (cornerRadius : α)
  | image (placement : ImagePlacement α)
  | text (run : TextRun α)
  | hitRegion (rect : Rect α) (link : Link)
  deriving BEq, DecidableEq, Repr

namespace ImageMask

/-- The shape that a mask asks for; anything but a circle is a rectangle. -/
def ofMask : Option Mask → ImageMask
  | some .circle => circle
  | _ => rectangle

end ImageMask

namespace Align

/-- The side that a justification asks for. -/
def ofJustification : Justification → Align
  | .left => leading
  | .right => trailing
  | .center => center
  | .unknown => center

end Align

namespace Primitive

/-- The area of a primitive. -/
def rect {α : Type} : Primitive α → Rect α
  | fill rect _ _ => rect
  | image placement => placement.frame
  | text run => run.rect
  | hitRegion rect _ => rect

/-- Is it an area to activate? -/
def isHitRegion {α : Type} : Primitive α → Bool
  | hitRegion _ _ => true
  | _ => false

end Primitive
end HomeWidget
