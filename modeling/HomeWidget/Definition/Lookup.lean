import HomeWidget.Definition.Basic

/-!
# What a definition means

Names are looked up here, and defaults are applied: the value a text or an image shows, the layout that opens, the
layout of the thumbnail. A definition may also be restricted to surfaces without the extra large size; its layouts
and its display order are then filtered together.
-/
namespace HomeWidget

variable {α : Type}

/-! ## §1. Tags -/

namespace SizeClass

/-- The name of a size in documents. -/
def name : SizeClass → String
  | small => "small"
  | medium => "medium"
  | large => "large"
  | extraLarge => "extra_large"
  | unknown => "unknown"

/-- The sizes that a surface can have. -/
def all : List SizeClass := [small, medium, large, extraLarge]

/-- The size of a name, if it is the name of one. -/
def ofName? (name : String) : Option SizeClass := all.find? (·.name == name)

/-- The size of a name; `unknown` if it is the name of none. -/
def ofName (name : String) : SizeClass := (ofName? name).getD unknown

/-- The extent of a surface, in pixels. -/
def footprint [Scalar α] : SizeClass → HomeWidget.Size α
  | small => ⟨141.0, 141.0⟩
  | medium => ⟨292.0, 141.0⟩
  | large => ⟨292.0, 311.0⟩
  | extraLarge => ⟨634.5, 305.5⟩
  | unknown => ⟨141.0, 141.0⟩

end SizeClass

namespace FontWeight

/-- The name of a weight in documents. -/
def name : FontWeight → String
  | light => "light"
  | medium => "medium"
  | bold => "bold"
  | extraBold => "extra_bold"
  | unknown => "unknown"

/-- The weights that are known. -/
def all : List FontWeight := [light, medium, bold, extraBold]

/-- The weight of a name. -/
def ofName (name : String) : FontWeight := (all.find? (·.name == name)).getD unknown

end FontWeight

namespace Justification

/-- The name of a justification in documents. -/
def name : Justification → String
  | left => "left"
  | center => "center"
  | right => "right"
  | unknown => "unknown"

/-- The justifications that are known. -/
def all : List Justification := [left, center, right]

/-- The justification of a name. -/
def ofName (name : String) : Justification := (all.find? (·.name == name)).getD unknown

end Justification

namespace Mask

/-- The name of a mask in documents. -/
def name : Mask → String
  | rectangle => "none"
  | circle => "circle"
  | unknown => "unknown"

/-- The mask of a name; a rectangle has two. -/
def ofName (name : String) : Mask :=
  if name = "none" ∨ name = "rectangle" then rectangle
  else if name = "circle" then circle
  else unknown

end Mask

/-! ## §2. Styles and nodes -/

namespace Styles

/-- The colour text of a named colour. -/
def color? (s : Styles) (name : String) : Option String := do
  let style ← (← s.colors).get? name
  pure style.color

/-- The family of a named font, if it names one. -/
def fontFamily? (s : Styles) (name : String) : Option String := do
  let style ← (← s.fonts).get? name
  style.family

end Styles

/-- The value that a name leads to in the data. -/
def dataValue? (data : Table String) (ref : Option String) : Option String := ref.bind data.get?

namespace TextNode

/-- The text shown: the literal one, else the data value. -/
def resolve? (t : TextNode α) (data : Table String) : Option String := t.string <|> dataValue? data t.dataRef

/-- The point size; 18 where none is given. -/
def sizeOrDefault [Scalar α] (t : TextNode α) : α := t.size.getD 18.0

/-- How far a text may shrink; not at all where nothing is given. -/
def minScaleOrDefault [Scalar α] (t : TextNode α) : α := t.minScaleFactor.getD 1.0

/-- The weight; medium where none that is known is given. -/
def weightOrDefault (t : TextNode α) : FontWeight :=
  match t.weight with
  | none => .medium
  | some .unknown => .medium
  | some w => w

/-- The justification; centred where none that is known is given. -/
def justificationOrDefault (t : TextNode α) : Justification :=
  match t.justification with
  | none => .center
  | some .unknown => .center
  | some j => j

end TextNode

/-- The address of an image: the literal one, else the data value. -/
def ImageNode.resolve? (i : ImageNode) (data : Table String) : Option String :=
  i.url <|> dataValue? data i.dataRef

/-- The address that a cell opens. -/
def Cell.linkUrl? (c : Cell α) (data : Table String) : Option String := dataValue? data c.linkUrlDataRef

/-! ## §3. Layouts of a definition -/

namespace Draft

/--
The definition for surfaces that may not have the extra large size: without it, extra large layouts go, and the
display order keeps the names that still lead to a layout.
-/
def restrict (supportsExtraLarge : Bool) (d : Draft α) : Draft α :=
  if supportsExtraLarge then d
  else
    -- a name of the order goes with its layout, and so does a name that led nowhere before
    let layouts := d.layouts.filter fun _ l => l.size ≠ .extraLarge
    { d with layouts := layouts, layoutDisplayOrder := d.layoutDisplayOrder.map (·.filter layouts.contains) }

/-- The order in which layouts are offered: as given, else as they are defined. -/
def displayOrder (d : Draft α) : List String := d.layoutDisplayOrder.getD d.layouts.names

/-- The layout that opens: the default if it exists, else the first in display order that does. -/
def defaultLayoutName? (d : Draft α) : Option String :=
  (d.defaultLayout.filter d.layouts.contains) <|> d.displayOrder.find? d.layouts.contains

/-- The layout shown as a thumbnail: the one named, else the first one, if it exists and is small. -/
def thumbnailLayoutName? (d : Draft α) : Option String :=
  (d.thumbnailLayout <|> d.layouts.names.head?).filter fun name =>
    (d.layouts.get? name).any (·.size == .small)

end Draft

namespace Widget

/-- The name of the data value that the whole surface opens. -/
def contentUrlKey : String := "content_url"

/-- A data value. -/
def dataValue? (w : Widget α) (key : String) : Option String := w.draft.data.get? key

/-- The address that the whole surface opens. -/
def contentUrl? (w : Widget α) : Option String := w.dataValue? contentUrlKey

/-- A layout by name. -/
def layout? (w : Widget α) (name : String) : Option (Layout α) := w.draft.layouts.get? name

end Widget
end HomeWidget
