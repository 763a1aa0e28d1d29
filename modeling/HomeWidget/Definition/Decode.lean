import HomeWidget.Definition.Lookup
import HomeWidget.Json.Basic
import HomeWidget.Time.Reader

/-!
# Definitions from JSON

A record is an object with the members it needs, in any order and among any others; or it is an array of its
members in their declared order, whose last ones may be missing. `recordMembers` brings both to a list of named
members, and what a record needs is looked up there: an optional member may also be `null`.

A tag is its name, or an object whose only member is that name with the value `null`. A tag that is not
known is `unknown`; it is never an error.
-/
namespace HomeWidget

/-- Why a JSON value is not the definition, or the part of one, that it was read as. -/
inductive Mismatch where
  /-- A record lacks a member that it needs. -/
  | absent (member : String)
  /-- A value is of another kind than the one needed. -/
  | wrongKind
  /-- An array has more items than the record has members. -/
  | tooManyItems
  /-- A whole number lies outside its range. -/
  | outOfRange
  /-- A text is no date. -/
  | notADate
  deriving DecidableEq, Repr

/-- What is wrong, in words. -/
def Mismatch.message : Mismatch → String
  | absent member => "missing member '" ++ member ++ "'"
  | wrongKind => "value of the wrong kind"
  | tooManyItems => "more items than members"
  | outOfRange => "number out of range"
  | notADate => "text is no date"

/-- The result of reading a part of a definition. -/
abbrev Decoded (β : Type) := Except Mismatch β

namespace Decode

variable {β : Type}

/-! ## §1. Values -/

/-- A text. -/
def asText : Json → Decoded String
  | .string s => .ok s
  | _ => .error .wrongKind

/-- A number. -/
def asNumber : Json → Decoded Float
  | .number n => .ok n.toFloat
  | _ => .error .wrongKind

/-- A whole number of 64 bits, with a sign. -/
def asWhole : Json → Decoded Int
  | .number (.whole n) => if -2 ^ 63 ≤ n ∧ n < 2 ^ 63 then .ok n else .error .outOfRange
  | _ => .error .wrongKind

/-- A date. -/
def asDate (json : Json) : Decoded Timestamp := do
  match Timestamp.ofText? (← asText json).toList with
  | some t => pure t
  | none => .error .notADate

/-- A tag. -/
def asTag (ofName : String → β) : Json → Decoded β
  | .string name => .ok (ofName name)
  -- the other spelling of a tag: the one member of an object
  | .object [(name, .null)] => .ok (ofName name)
  | _ => .error .wrongKind

/-- A list. -/
def asList (item : Json → Decoded β) : Json → Decoded (List β)
  | .array items => items.mapM item
  | _ => .error .wrongKind

/-- A table. -/
def asTable (value : Json → Decoded β) : Json → Decoded (Table β)
  | .object members => do
    let members ← members.mapM fun (name, json) => do pure (name, ← value json)
    pure (Table.ofList members)
  | _ => .error .wrongKind

/-! ## §2. Records -/

/-- The named members of a record with the given members, written as an object or as an array. -/
def recordMembers (declared : List String) : Json → Decoded (List (String × Json))
  | .object members => .ok members
  -- the items of an array take the declared names in order; the last names may go without
  | .array items => if items.length ≤ declared.length then .ok (declared.zip items) else .error .tooManyItems
  | _ => .error .wrongKind

/-- A member that a record needs. -/
def required (members : List (String × Json)) (name : String) (read : Json → Decoded β) : Decoded β :=
  match members.lookup name with
  | some json => read json
  | none => .error (.absent name)

/-- A member that a record may lack, or have as `null`. -/
def ifGiven (members : List (String × Json)) (name : String) (read : Json → Decoded β) : Decoded (Option β) :=
  match members.lookup name with
  | some .null => .ok none
  | some json => (read json).map some
  | none => .ok none

end Decode

open Decode

/-! ## §3. The parts of a definition -/

/-- A size from JSON. -/
def SizeClass.ofJson : Json → Decoded SizeClass := asTag SizeClass.ofName

/-- A colour style from JSON. -/
def ColorStyle.ofJson (json : Json) : Decoded ColorStyle := do
  let ms ← recordMembers ["label", "color"] json
  pure { label := ← ifGiven ms "label" asText, color := ← required ms "color" asText }

/-- A font style from JSON. -/
def FontStyle.ofJson (json : Json) : Decoded FontStyle := do
  let ms ← recordMembers ["label", "family"] json
  pure { label := ← ifGiven ms "label" asText, family := ← ifGiven ms "family" asText }

/-- A style table from JSON. -/
def Styles.ofJson (json : Json) : Decoded Styles := do
  let ms ← recordMembers ["colors", "fonts"] json
  pure
    { colors := ← ifGiven ms "colors" (asTable ColorStyle.ofJson),
      fonts := ← ifGiven ms "fonts" (asTable FontStyle.ofJson) }

/-- A text from JSON. -/
def TextNode.ofJson (json : Json) : Decoded (TextNode Float) := do
  let ms ← recordMembers
    ["string", "data_ref", "color_style", "font_style", "size", "weight", "justification", "min_scale_factor"] json
  pure
    { string := ← ifGiven ms "string" asText, dataRef := ← ifGiven ms "data_ref" asText,
      colorStyle := ← ifGiven ms "color_style" asText, fontStyle := ← ifGiven ms "font_style" asText,
      size := ← ifGiven ms "size" asNumber, weight := ← ifGiven ms "weight" (asTag FontWeight.ofName),
      justification := ← ifGiven ms "justification" (asTag Justification.ofName),
      minScaleFactor := ← ifGiven ms "min_scale_factor" asNumber }

/-- An image from JSON. -/
def ImageNode.ofJson (json : Json) : Decoded ImageNode := do
  let ms ← recordMembers ["data_ref", "url", "mask"] json
  pure
    { dataRef := ← ifGiven ms "data_ref" asText, url := ← ifGiven ms "url" asText,
      mask := ← ifGiven ms "mask" (asTag Mask.ofName) }

/-- A cell from JSON. -/
def Cell.ofJson (json : Json) : Decoded (Cell Float) := do
  let ms ← recordMembers
    ["width", "padding", "background_color_style", "text", "image", "link_url_data_ref"] json
  pure
    { width := ← required ms "width" asNumber, padding := ← ifGiven ms "padding" asNumber,
      backgroundColorStyle := ← ifGiven ms "background_color_style" asText,
      text := ← ifGiven ms "text" TextNode.ofJson, image := ← ifGiven ms "image" ImageNode.ofJson,
      linkUrlDataRef := ← ifGiven ms "link_url_data_ref" asText }

/-- A row from JSON. -/
def Row.ofJson (json : Json) : Decoded (Row Float) := do
  let ms ← recordMembers ["height", "cells"] json
  pure { height := ← required ms "height" asNumber, cells := ← ifGiven ms "cells" (asList Cell.ofJson) }

/-- A layer from JSON. -/
def Layer.ofJson (json : Json) : Decoded (Layer Float) := do
  let ms ← recordMembers ["rows"] json
  pure { rows := ← ifGiven ms "rows" (asList Row.ofJson) }

/-- A layout from JSON. -/
def Layout.ofJson (json : Json) : Decoded (Layout Float) := do
  let ms ← recordMembers ["size", "styles", "layers"] json
  pure
    { size := ← required ms "size" SizeClass.ofJson, styles := ← required ms "styles" Styles.ofJson,
      layers := ← required ms "layers" (asList Layer.ofJson) }

/-- The members of a definition, in their declared order. -/
def Draft.declared : List String :=
  ["name", "description", "content_last_modified", "version", "data", "default_layout", "thumbnail_layout",
   "layout_display_order", "layouts"]

/-- A draft from JSON. -/
def Draft.ofJson (json : Json) : Decoded (Draft Float) := do
  let ms ← recordMembers Draft.declared json
  pure
    { name := ← required ms "name" asText, description := ← ifGiven ms "description" asText,
      contentLastModified := ← ifGiven ms "content_last_modified" asDate,
      version := ← ifGiven ms "version" asWhole, data := ← required ms "data" (asTable asText),
      defaultLayout := ← ifGiven ms "default_layout" asText,
      thumbnailLayout := ← ifGiven ms "thumbnail_layout" asText,
      layoutDisplayOrder := ← ifGiven ms "layout_display_order" (asList asText),
      layouts := ← required ms "layouts" (asTable Layout.ofJson) }

end HomeWidget
