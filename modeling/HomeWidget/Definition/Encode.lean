import HomeWidget.Definition.Lookup
import HomeWidget.Json.Basic

/-!
# Definitions as JSON

The written form of a definition. Members stand in a fixed order; an optional one that is absent is left out; the
members of tables keep their order. A widget is its draft with the id before it, so that its document can be read
back as a definition.
-/
namespace HomeWidget

open Json

/-- A table as an object. -/
def Table.toJson {α : Type} (write : α → Json) (t : Table α) : Json :=
  object (t.entries.map fun (name, value) => (name, write value))

/-- A list as an array. -/
def Json.ofList {α : Type} (write : α → Json) (items : List α) : Json := array (items.map write)

namespace ColorStyle

/-- A colour style as JSON. -/
def toJson (s : ColorStyle) : Json :=
  object (member? "label" s.label .string ++ [("color", .string s.color)])

end ColorStyle

namespace FontStyle

/-- A font style as JSON. -/
def toJson (s : FontStyle) : Json :=
  object (member? "label" s.label .string ++ member? "family" s.family .string)

end FontStyle

namespace Styles

/-- A style table as JSON. -/
def toJson (s : Styles) : Json :=
  object (member? "colors" s.colors (Table.toJson ColorStyle.toJson) ++
    member? "fonts" s.fonts (Table.toJson FontStyle.toJson))

end Styles

namespace TextNode

/-- A text as JSON. -/
def toJson (t : TextNode Float) : Json :=
  object (member? "string" t.string .string ++ member? "data_ref" t.dataRef .string ++
    member? "color_style" t.colorStyle .string ++ member? "font_style" t.fontStyle .string ++
    member? "size" t.size ofFloat ++ member? "weight" t.weight (.string ·.name) ++
    member? "justification" t.justification (.string ·.name) ++
    member? "min_scale_factor" t.minScaleFactor ofFloat)

end TextNode

namespace ImageNode

/-- An image as JSON. -/
def toJson (i : ImageNode) : Json :=
  object (member? "data_ref" i.dataRef .string ++ member? "url" i.url .string ++
    member? "mask" i.mask (.string ·.name))

end ImageNode

namespace Cell

/-- A cell as JSON. -/
def toJson (c : Cell Float) : Json :=
  object ([("width", ofFloat c.width)] ++ member? "padding" c.padding ofFloat ++
    member? "background_color_style" c.backgroundColorStyle .string ++
    member? "text" c.text TextNode.toJson ++ member? "image" c.image ImageNode.toJson ++
    member? "link_url_data_ref" c.linkUrlDataRef .string)

end Cell

namespace Row

/-- A row as JSON. -/
def toJson (r : Row Float) : Json :=
  object ([("height", ofFloat r.height)] ++ member? "cells" r.cells (Json.ofList Cell.toJson))

end Row

namespace Layer

/-- A layer as JSON. -/
def toJson (l : Layer Float) : Json := object (member? "rows" l.rows (Json.ofList Row.toJson))

end Layer

namespace Layout

/-- A layout as JSON. -/
def toJson (l : Layout Float) : Json :=
  object [("size", .string l.size.name), ("styles", l.styles.toJson), ("layers", Json.ofList Layer.toJson l.layers)]

end Layout

namespace Draft

/-- The members of a draft. -/
def members (d : Draft Float) : List (String × Json) :=
  [("name", .string d.name)] ++ member? "description" d.description .string ++
    member? "content_last_modified" d.contentLastModified (.string ·.write) ++
    member? "version" d.version (number <| .whole ·) ++ [("data", Table.toJson .string d.data)] ++
    member? "default_layout" d.defaultLayout .string ++ member? "thumbnail_layout" d.thumbnailLayout .string ++
    member? "layout_display_order" d.layoutDisplayOrder (Json.ofList .string) ++
    [("layouts", Table.toJson Layout.toJson d.layouts)]

/-- A draft as JSON. -/
def toJson (d : Draft Float) : Json := object d.members

end Draft

namespace Widget

/-- A widget as JSON. -/
def toJson (w : Widget Float) : Json := object (("id", .string w.id) :: w.draft.members)

end Widget
end HomeWidget
