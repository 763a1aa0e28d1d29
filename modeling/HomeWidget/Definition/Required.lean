import HomeWidget.Json.Basic

/-!
# Required properties

Before a definition is decoded, the properties without which it means nothing are looked for, in the order in which
a reader of the document would meet them: name, data and layouts; in each layout its size, its styles, the colour of
every colour style, its layers; in each row its height, and in each cell its width. The first one that is absent, or
of the wrong kind, is reported with the path of the object that should hold it.
-/
namespace HomeWidget.Required

/-! ## §1. Paths -/

/-- One step from a value into a part of it. -/
inductive Step where
  | field (name : String)
  | index (i : Nat)
  deriving DecidableEq, Repr

/-- The way from the root of a document to a part of it. -/
abbrev Path := List Step

/-- A step as it is written after another one. -/
def Step.write : Step → String
  | .field name => "." ++ name
  | .index i => "[" ++ toString i ++ "]"

/-- A path: names with points between them, and indexes in brackets. -/
def Path.write : Path → String
  | [] => ""
  | .field name :: rest => name ++ String.join (rest.map Step.write)
  | .index i :: rest => (Step.index i).write ++ String.join (rest.map Step.write)

/-! ## §2. Properties -/

/-- The kind of value that a property must have. -/
inductive Kind where
  | string
  | number
  | object
  | array
  deriving DecidableEq, Repr

/-- Is a value of the kind? -/
def Kind.admits : Kind → Json → Bool
  | .string, .string _ => true
  | .number, .number _ => true
  | .object, .object _ => true
  | .array, .array _ => true
  | _, _ => false

/-- A property that is absent or of the wrong kind, and the path of the object that should hold it. -/
structure Gap where
  field : String
  path : Path
  deriving DecidableEq, Repr

/-- The path of the object, written; the root has none. -/
def Gap.parent? (g : Gap) : Option String := if g.path.isEmpty then none else some (Path.write g.path)

/-- The value of a property of the object at `path`. -/
def property (path : Path) (owner : Json) (field : String) (kind : Kind) : Except Gap Json :=
  match owner.get? field with
  | some value => if kind.admits value then .ok value else .error ⟨field, path⟩
  | none => .error ⟨field, path⟩

/-- Only that a property is there. -/
def present (path : Path) (owner : Json) (field : String) (kind : Kind) : Except Gap Unit := do
  let _ ← property path owner field kind
  pure ()

/-! ## §3. The walk -/

/-- Checks every item of an array at `path`; what is no array has none. -/
def eachItem (path : Path) (value : Option Json) (check : Path → Json → Except Gap Unit) : Except Gap Unit :=
  ((value.bind Json.items?).getD []).zipIdx.forM fun (item, i) => check (path ++ [.index i]) item

/-- Checks every member of an object at `path`; what is no object has none. -/
def eachMember (path : Path) (value : Option Json) (check : Path → Json → Except Gap Unit) : Except Gap Unit :=
  ((value.bind Json.members?).getD []).forM fun (name, member) => check (path ++ [.field name]) member

/-- A cell must have a width. -/
def checkCell (path : Path) (cell : Json) : Except Gap Unit := present path cell "width" .number

/-- A row must have a height, and its cells must be whole. -/
def checkRow (path : Path) (row : Json) : Except Gap Unit := do
  present path row "height" .number
  eachItem (path ++ [.field "cells"]) (row.get? "cells") checkCell

/-- The rows of a layer must be whole. -/
def checkLayer (path : Path) (layer : Json) : Except Gap Unit :=
  eachItem (path ++ [.field "rows"]) (layer.get? "rows") checkRow

/-- A colour style must have a colour. -/
def checkColor (path : Path) (color : Json) : Except Gap Unit := present path color "color" .string

/-- A layout must have a size, styles with whole colours, and whole layers. -/
def checkLayout (path : Path) (layout : Json) : Except Gap Unit := do
  present path layout "size" .string
  -- the colours may be absent, but the object that holds them may not
  let styles ← property path layout "styles" .object
  eachMember (path ++ [.field "styles", .field "colors"]) (styles.get? "colors") checkColor
  let layers ← property path layout "layers" .array
  eachItem (path ++ [.field "layers"]) (some layers) checkLayer

/-- The first gap of a definition, if it has one. -/
def check (root : Json) : Except Gap Unit := do
  present [] root "name" .string
  present [] root "data" .object
  let layouts ← property [] root "layouts" .object
  eachMember [.field "layouts"] (some layouts) checkLayout

end HomeWidget.Required
