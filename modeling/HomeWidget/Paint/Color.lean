import HomeWidget.Geometry
import HomeWidget.Text.Blank
import HomeWidget.Text.Cut
import HomeWidget.Text.Hex

/-!
# Colours

A colour has four channels between `0` and `1`, its opacity not multiplied into the others. Colour texts are
`#RRGGBB` or `#RRGGBBAA`; every other text is opaque black, so that reading a colour never fails. On the screen a
channel has 256 levels.
-/
namespace HomeWidget

/-- A colour: red, green, blue and opacity. -/
structure Rgba (α : Type) where
  r : α
  g : α
  b : α
  a : α
  deriving BEq, DecidableEq, Repr

namespace Rgba

open Scalar

variable {α : Type} [Scalar α]

/-- Opaque black. -/
def black : Rgba α := ⟨0.0, 0.0, 0.0, 1.0⟩

/-- Opaque white. -/
def white : Rgba α := ⟨1.0, 1.0, 1.0, 1.0⟩

/-- Nothing at all. -/
def clear : Rgba α := ⟨0.0, 0.0, 0.0, 0.0⟩

/-! ## §1. Levels -/

/-- The channel of a level between 0 and 255. -/
@[specialize] def ofLevel (level : Nat) : α := ofNat level / 255.0

/-- The nearest level of a channel. -/
@[specialize] def toLevel (channel : α) : UInt8 := UInt8.ofNat (toNat (round (clampUnit channel * 255.0)))

/-- The colour with these four levels. -/
@[specialize] def ofLevels (r g b a : Nat) : Rgba α := ⟨ofLevel r, ofLevel g, ofLevel b, ofLevel a⟩

/-- The four levels of a colour. -/
@[specialize] def levels (c : Rgba α) : List UInt8 := [toLevel c.r, toLevel c.g, toLevel c.b, toLevel c.a]

/-! ## §2. Texts -/

/-- The level that the two bytes after an offset of a text spell. -/
def levelAt? (text : List Char) (offset : Nat) : Option Nat := (Text.slice? offset 2 text).bind Hex.byte?

/-- The levels that a text spells, three or four of them by its length in bytes, opaque unless it says otherwise. -/
def levelsOf? (text : List Char) : Option (Nat × Nat × Nat × Nat) :=
  match Text.byteLength text with
  | 6 => do pure (← levelAt? text 0, ← levelAt? text 2, ← levelAt? text 4, 255)
  | 8 => do pure (← levelAt? text 0, ← levelAt? text 2, ← levelAt? text 4, ← levelAt? text 6)
  | _ => none

/-- A text without one `#` at its start. -/
def dropHash : List Char → List Char
  | '#' :: rest => rest
  | text => text

/-- The colour of a text; opaque black where the text is no colour. -/
def ofText (text : List Char) : Rgba α :=
  match levelsOf? (dropHash (Text.trim text)) with
  | some (r, g, b, a) => ofLevels r g b a
  | none => black

/-! ## §3. Mixing -/

/-- The colour at `t` on the way from one colour to another, within `[0, 1]`. -/
@[specialize] def lerp (c d : Rgba α) (t : α) : Rgba α :=
  let t := clampUnit t
  ⟨c.r + (d.r - c.r) * t, c.g + (d.g - c.g) * t, c.b + (d.b - c.b) * t, c.a + (d.a - c.a) * t⟩

/-- A colour laid over another. Where both are clear so is the result. -/
@[specialize] def onto (src dst : Rgba α) : Rgba α :=
  let sa := clampUnit src.a
  let da := clampUnit dst.a * (1.0 - sa)
  let a := sa + da
  -- the opacity is divided out again, which needs some of it
  if a ≤ 0.0 then clear
  else ⟨(src.r * sa + dst.r * da) / a, (src.g * sa + dst.g * da) / a, (src.b * sa + dst.b * da) / a, a⟩

end Rgba
end HomeWidget
