import HomeWidget.Json.Basic
import HomeWidget.Surface.Primitive

/-!
# Surfaces as JSON

The written form of primitives and of what they hold, for hosts that draw surfaces elsewhere. Kinds are told
apart by a first member; an image is always scaled to fill its frame.
-/
namespace HomeWidget

open Json

/-- A point as JSON. -/
def Point.toJson (p : Point Float) : Json := object [("x", ofFloat p.x), ("y", ofFloat p.y)]

/-- A unit point as JSON. -/
def UnitPoint.toJson (p : UnitPoint Float) : Json := object [("x", ofFloat p.x), ("y", ofFloat p.y)]

/-- An extent as JSON. -/
def Size.toJson (s : Size Float) : Json := object [("width", ofFloat s.width), ("height", ofFloat s.height)]

/-- A rectangle as JSON. -/
def Rect.toJson (r : Rect Float) : Json :=
  object [("x0", ofFloat r.x0), ("y0", ofFloat r.y0), ("x1", ofFloat r.x1), ("y1", ofFloat r.y1)]

namespace Rgba

/-- The channels of a colour as members. -/
def members (c : Rgba Float) : List (String × Json) :=
  [("r", ofFloat c.r), ("g", ofFloat c.g), ("b", ofFloat c.b), ("a", ofFloat c.a)]

/-- A colour as JSON. -/
def toJson (c : Rgba Float) : Json := object c.members

end Rgba

namespace Gradient

/-- A gradient as members. -/
def members (g : Gradient Float) : List (String × Json) :=
  [("degrees", ofFloat g.degrees), ("first", g.first.toJson), ("second", g.second.toJson),
   ("start", g.start.toJson), ("end", g.stop.toJson)]

/-- A gradient as JSON. -/
def toJson (g : Gradient Float) : Json := object g.members

end Gradient

/-- A filling as JSON. -/
def Paint.toJson : Paint Float → Json
  | .solid c => object (("kind", string "solid") :: c.members)
  | .gradient g => object (("kind", string "gradient") :: g.members)

/-- The name of a mask. -/
def ImageMask.name : ImageMask → String
  | .rectangle => "rectangle"
  | .circle => "circle"

/-- The name of a side. -/
def Align.name : Align → String
  | .leading => "leading"
  | .center => "center"
  | .trailing => "trailing"

/-- A font as JSON. -/
def FontFamily.toJson : FontFamily → Json
  | .system => object [("kind", string "system")]
  | .named family => object [("kind", string "named"), ("family", string family)]

/-- A primitive as JSON. -/
def Primitive.toJson : Primitive Float → Json
  | .fill rect paint cornerRadius =>
    object [("op", string "fill"), ("rect", rect.toJson), ("paint", paint.toJson),
      ("corner_radius", ofFloat cornerRadius)]
  | .image i =>
    object [("op", string "image"), ("frame", i.frame.toJson), ("clip", i.clip.toJson),
      ("source", string i.source), ("mask", string i.mask.name), ("scaling", string "fill")]
  | .text run =>
    object [("op", string "text"), ("rect", run.rect.toJson), ("clip", run.clip.toJson),
      ("text", string run.text), ("paint", run.paint.toJson), ("font", run.font.toJson),
      ("weight", string run.weight.name), ("size", ofFloat run.size),
      ("min_scale_factor", ofFloat run.minScaleFactor), ("text_align", string run.textAlign.name),
      ("box_align", string run.boxAlign.name)]
  | .hitRegion rect link => object [("op", string "hit_region"), ("rect", rect.toJson), ("link", link.toJson)]

end HomeWidget
