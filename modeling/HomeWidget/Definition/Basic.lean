import HomeWidget.Table
import HomeWidget.Geometry
import HomeWidget.Time.Timestamp

/-!
# Widget definitions

A widget is described by a document: its name, the texts and addresses it shows (`data`), and a number of layouts,
each for one size of surface. A layout is a stack of layers, a layer a stack of rows, and a row a run of cells on a
grid of twelve units; a cell may have a background, an image, a text and a link. Styles and data are referred to by
name, and a name may lead nowhere.

The types below are what a definition means, whatever numbers it is measured in (`α`). A tag that is not known is
kept as `unknown` and is treated like the default.
-/
namespace HomeWidget

/-! ## §1. Tags -/

/-- The size of surface that a layout is made for. -/
inductive SizeClass where
  | small
  | medium
  | large
  | extraLarge
  | unknown
  deriving DecidableEq, Repr

/-- How heavy a text is set. -/
inductive FontWeight where
  | light
  | medium
  | bold
  | extraBold
  | unknown
  deriving DecidableEq, Repr

/-- The side of its box to which a text is set. -/
inductive Justification where
  | left
  | center
  | right
  | unknown
  deriving DecidableEq, Repr

/-- The shape that an image is cut to. -/
inductive Mask where
  | rectangle
  | circle
  | unknown
  deriving DecidableEq, Repr

/-! ## §2. Styles -/

/-- A named colour: the text of a colour or of a gradient. -/
structure ColorStyle where
  label : Option String
  color : String
  deriving BEq, DecidableEq, Repr

/-- A named font; without a family it is the font of the system. -/
structure FontStyle where
  label : Option String
  family : Option String
  deriving BEq, DecidableEq, Repr

/-- The named styles of a layout. -/
structure Styles where
  colors : Option (Table ColorStyle)
  fonts : Option (Table FontStyle)
  deriving BEq

/-! ## §3. Cells, rows, layers -/

/-- A text, given itself or by the name of a data value. -/
structure TextNode (α : Type) where
  string : Option String
  dataRef : Option String
  colorStyle : Option String
  fontStyle : Option String
  size : Option α
  weight : Option FontWeight
  justification : Option Justification
  minScaleFactor : Option α
  deriving BEq

/-- An image, given by its address or by the name of a data value. -/
structure ImageNode where
  dataRef : Option String
  url : Option String
  mask : Option Mask
  deriving BEq, DecidableEq, Repr

/-- A cell of the grid. -/
structure Cell (α : Type) where
  /-- In units of the grid. -/
  width : α
  /-- On every side, in units of the grid across the surface. -/
  padding : Option α
  backgroundColorStyle : Option String
  text : Option (TextNode α)
  image : Option ImageNode
  linkUrlDataRef : Option String
  deriving BEq

/-- A run of cells from left to right. -/
structure Row (α : Type) where
  /-- In units of the grid. -/
  height : α
  cells : Option (List (Cell α))
  deriving BEq

/-- A stack of rows from top to bottom. -/
structure Layer (α : Type) where
  rows : Option (List (Row α))
  deriving BEq

/-- An arrangement for one size of surface; its layers lie on one another, the first at the back. -/
structure Layout (α : Type) where
  size : SizeClass
  styles : Styles
  layers : List (Layer α)
  deriving BEq

/-! ## §4. The whole -/

/-- A definition as its document gives it, before it is known where the document came from. -/
structure Draft (α : Type) where
  name : String
  description : Option String
  contentLastModified : Option Timestamp
  version : Option Int
  data : Table String
  /-- The layout that opens; may lead nowhere. -/
  defaultLayout : Option String
  /-- The layout shown as a thumbnail; may lead nowhere. -/
  thumbnailLayout : Option String
  /-- The order in which layouts are offered; its names may lead nowhere. -/
  layoutDisplayOrder : Option (List String)
  layouts : Table (Layout α)
  deriving BEq

/-- A definition with its id, the address that it was finally served from. -/
structure Widget (α : Type) where
  id : String
  draft : Draft α
  deriving BEq

end HomeWidget
