import HomeWidget.Surface.Placeholder

/-!
# Laying out a surface

A surface is divided into a grid of twelve units each way. In every layer the rows are stacked from top to bottom,
in every row the cells from left to right, and the stack and each run are centred, whether they leave room or
overflow. A cell then contributes what it shows, in a fixed order: its background, its image, its text, and the
area that opens its link. References that lead nowhere show nothing.
-/
namespace HomeWidget.Surface

variable {α : Type} [Scalar α]

open Scalar

/-- What a layout is drawn for. -/
structure Options where
  /-- Drawn as a preview inside the app, where nothing can be activated. -/
  inApp : Bool
  appearance : Appearance
  deriving DecidableEq, Repr

/-! ## §1. The grid -/

/-- A number of grid units in pixels, along an axis of the given length. -/
def gridToPixels (units extent : α) : α := units * extent / 12.0

/-- Where a run of grid units starts that is centred along an axis. -/
def centeringOffset (units extent : α) : α := (extent - gridToPixels units extent) / 2.0

/-- The length in pixels of something measured in grid units; never negative. -/
def gridLength (units extent : α) : α := greatest (gridToPixels units extent) 0.0

/-- The start of a run of lengths in grid units, those that are negative counting as nothing. -/
def runStart (lengths : List α) (extent : α) : α :=
  centeringOffset (sum (lengths.map (greatest · 0.0))) extent

/-- The spans of a run from `start` on: each begins where the one before it ends. -/
def spansFrom (start extent : α) : List α → List (α × α)
  | [] => []
  | units :: rest =>
    let length := gridLength units extent
    (start, start + length) :: spansFrom (start + length) extent rest

/-- The spans of a centred run. -/
def spans (lengths : List α) (extent : α) : List (α × α) := spansFrom (runStart lengths extent) extent lengths

/-! ## §2. Cells -/

/-- What the cells of a layout are drawn with. -/
structure Context (α : Type) where
  reading : Reading α
  id : String
  data : Table String
  styles : Styles
  target : Size α
  inApp : Bool

/-- The filling of a named colour. -/
def Context.paint? (ctx : Context α) (style : Option String) : Option (Paint α) :=
  (style.bind ctx.styles.color?).map fun text => Paint.ofText ctx.reading text.toList

/-- The background of a cell. -/
def cellFill (ctx : Context α) (cell : Cell α) (frame : Rect α) : List (Primitive α) :=
  ((ctx.paint? cell.backgroundColorStyle).map fun paint => .fill frame paint 0.0).toList

/-- The image of a cell, in the part of its frame that padding leaves. -/
def cellImage (ctx : Context α) (cell : Cell α) (frame content : Rect α) : List (Primitive α) :=
  (do
    let image ← cell.image
    let source ← image.resolve? ctx.data
    pure (Primitive.image { frame := content, clip := frame, source, mask := ImageMask.ofMask image.mask })).toList

/-- The font of a text. -/
def Context.font (ctx : Context α) (style : Option String) : FontFamily :=
  ((style.bind ctx.styles.fontFamily?).map .named).getD .system

/-- A text node with its value, set in a box. -/
def textRun (ctx : Context α) (node : TextNode α) (text : String) (frame content : Rect α) : TextRun α :=
  let align := Align.ofJustification node.justificationOrDefault
  { rect := content, clip := frame, text, paint := (ctx.paint? node.colorStyle).getD (.solid Rgba.white),
    font := ctx.font node.fontStyle, weight := node.weightOrDefault, size := node.sizeOrDefault,
    minScaleFactor := node.minScaleOrDefault, textAlign := align, boxAlign := align }

/-- The text of a cell, unless it is empty. -/
def cellText (ctx : Context α) (cell : Cell α) (frame content : Rect α) : List (Primitive α) :=
  (do
    let node ← cell.text
    let text ← node.resolve? ctx.data
    if text.isEmpty then none else pure (Primitive.text (textRun ctx node text frame content))).toList

/-- The area that opens the link of a cell. -/
def cellLink (ctx : Context α) (cell : Cell α) (index : Nat) (frame : Rect α) : List (Primitive α) :=
  if ctx.inApp then []
  else ((cell.linkUrl? ctx.data).map fun url => .hitRegion frame (.cell url ctx.id (some index))).toList

/-- What a cell shows in its frame. Padding is measured across the surface on all four sides. -/
def drawCell (ctx : Context α) (index : Nat) (cell : Cell α) (frame : Rect α) : List (Primitive α) :=
  let content := frame.inset (gridToPixels (cell.padding.getD 0.0) ctx.target.width)
  cellFill ctx cell frame ++ cellImage ctx cell frame content ++ cellText ctx cell frame content ++
    cellLink ctx cell index frame

/-! ## §3. Rows, layers, surfaces -/

/-- What a row shows in its band. -/
def drawRow (ctx : Context α) (row : Row α) (band : α × α) : List (Primitive α) :=
  let cells := row.cells.getD []
  -- every cell keeps its index, also one that shows nothing
  let columns := spans (cells.map (·.width)) ctx.target.width
  ((cells.zip columns).zipIdx.map fun ((cell, x0, x1), index) =>
    drawCell ctx index cell ⟨x0, band.1, x1, band.2⟩).flatten

/-- What a layer shows. -/
def drawLayer (ctx : Context α) (layer : Layer α) : List (Primitive α) :=
  let rows := layer.rows.getD []
  let bands := spans (rows.map (·.height)) ctx.target.height
  ((rows.zip bands).map fun (row, band) => drawRow ctx row band).flatten

/-- The area that opens the address behind the whole surface. -/
def surfaceLink (widget : Widget α) (target : Size α) (inApp : Bool) : List (Primitive α) :=
  if inApp then []
  else (widget.contentUrl?.map fun url => .hitRegion (Rect.ofSize target) (.surface url widget.id)).toList

/-- The surface of a layout of a widget; a framed question mark if the widget has no such layout. -/
def render (reading : Reading α) (widget : Widget α) (layoutName : String) (target : Size α) (options : Options) :
    List (Primitive α) :=
  surfaceLink widget target options.inApp ++
    match widget.layout? layoutName with
    | some layout =>
      let ctx : Context α :=
        { reading, id := widget.id, data := widget.draft.data, styles := layout.styles, target,
          inApp := options.inApp }
      (layout.layers.map (drawLayer ctx)).flatten
    | none => unknownLayout target options.appearance

end HomeWidget.Surface
