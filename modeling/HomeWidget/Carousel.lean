import HomeWidget.Definition.Lookup

/-!
# The layout carousel

The layouts of a widget are offered as pages side by side. A finger drags the band of pages, and on release it snaps
to one of them. The state is two positions, counted in pages: `drag`, where the band is, and `snap`, where it last
came to rest. Everything a host draws is derived from the distance of a page to `drag`, which is taken modulo a
long period so that it stays small however far the band is thrown.
-/
namespace HomeWidget

open Scalar

/-! ## §1. Pages and positions -/

/-- A page: a layout by name, and its size if the layout exists. -/
structure Page where
  name : String
  size : Option SizeClass
  deriving DecidableEq, Repr

/-- What a page looks like at a distance. -/
structure PageVisual (α : Type) where
  distance : α
  scale : α
  /-- The higher, the closer to the viewer. -/
  zOrder : α
  /-- In pixels. -/
  xOffset : α
  deriving BEq, Repr

namespace Carousel

/-- How the band of pages moves and looks. -/
structure Options (α : Type) where
  /-- Pixels of dragging for one page. -/
  dragDivisor : α
  /-- Pixels of a fling for one page. -/
  flingDivisor : α
  /-- How many times the number of pages the period of distances is. -/
  wrapFactor : α
  /-- Pixels between neighbouring pages. -/
  pageSpacing : α
  deriving Repr

/-- The usual band. -/
def Options.usual {α : Type} [Scalar α] : Options α :=
  { dragDivisor := 200.0, flingDivisor := 300.0, wrapFactor := 5.0, pageSpacing := 200.0 }

/--
The remainder of `x` modulo `m` that is nearest to zero: `x - m · n` for the whole number `n` nearest to `x / m`, a
half going to the even neighbour. Without a period, or for a position that is not finite, it is `0`.
-/
def signedRemainder {α : Type} [Scalar α] (x m : α) : α :=
  if isZero m || !isFinite m || !isFinite x then 0.0 else x - m * roundEven (x / m)

/-- How much smaller the pages of a size are drawn, so that tall ones fit the band. -/
def previewScale {α : Type} [Scalar α] : SizeClass → α
  | .large => 0.7
  | .extraLarge => 0.65
  | _ => 1.0

end Carousel

/-- The pages of a widget and the position of the band. -/
structure Carousel (α : Type) where
  pages : List Page
  drag : α
  snap : α
  options : Carousel.Options α

namespace Carousel

variable {α : Type} [Scalar α]

/-- The band at rest on its first page. -/
def ofPages (pages : List Page) (options : Options α) : Carousel α := ⟨pages, 0.0, 0.0, options⟩

/-- The pages of a widget in display order. -/
def pagesOf (widget : Widget α) : List Page :=
  widget.draft.displayOrder.map fun name => ⟨name, (widget.layout? name).map (·.size)⟩

/-- The band of the layouts of a widget. -/
def ofWidget (widget : Widget α) (options : Options α) : Carousel α := ofPages (pagesOf widget) options

/-- The number of pages. -/
def count (c : Carousel α) : α := Scalar.ofNat c.pages.length

/-- The distance of a page to the band's position, with its sign. -/
def distance (c : Carousel α) (index : Nat) : α :=
  signedRemainder (c.drag - Scalar.ofNat index) (c.count * c.options.wrapFactor)

/-- The better of a candidate and a later page: the later one only if it is strictly nearer. -/
def nearer (c : Carousel α) (best : Option (Nat × α)) (index : Nat) : Option (Nat × α) :=
  let d := abs (c.distance index)
  match best with
  | none => some (index, d)
  | some (_, least) => if d < least then some (index, d) else best

/-- The page nearest to the band's position, of several the first. -/
def currentItem? (c : Carousel α) : Option Nat :=
  ((List.range c.pages.length).foldl c.nearer none).map Prod.fst

/-- The name of the nearest page. -/
def currentName? (c : Carousel α) : Option String :=
  c.currentItem?.bind fun i => c.pages[i]?.map (·.name)

/-- What a page looks like. -/
def visual (c : Carousel α) (index : Nat) : PageVisual α :=
  let distance := c.distance index
  let size := c.pages[index]?.bind (·.size)
  { distance,
    scale := (1.0 - abs distance * 0.4) * (size.map previewScale).getD 1.0,
    zOrder := 1.0 - abs distance * 0.6,
    xOffset := -distance * c.options.pageSpacing }

/-! ## §2. Moves -/

/-- The finger moves by `dx` pixels; the band follows, at most half a page beyond its ends. -/
def dragChanged (c : Carousel α) (dx : α) : Carousel α :=
  { c with drag := greatest (least (c.snap - dx / c.options.dragDivisor) (c.count - 0.5)) (-(0.5 : α)) }

/-- The finger lets go with a throw of `dx` pixels; the band snaps to the page that the throw reaches. -/
def dragEnded (c : Carousel α) (dx : α) : Carousel α × Option Nat :=
  if c.pages.isEmpty then ({ c with drag := 0.0, snap := 0.0 }, none)
  else
    -- the throw counts from where the band last rested, not from where it was dragged to
    let target := round (c.snap - dx / c.options.flingDivisor)
    let page := least (greatest target 0.0) (c.count - 1.0)
    let c := { c with drag := page, snap := page }
    (c, c.currentItem?)

/-- The band jumps to the first page of a name; without such a page it stays. -/
def scrollTo (c : Carousel α) (name : String) : Carousel α × Option Nat :=
  match c.pages.findIdx? (·.name == name) with
  | some index => ({ c with drag := Scalar.ofNat index, snap := Scalar.ofNat index }, some index)
  | none => (c, none)

/-- What can happen to the band. -/
inductive Move (α : Type) where
  | dragChanged (dx : α)
  | dragEnded (dx : α)
  | scrollTo (name : String)
  deriving Repr

/-- The band after a move, and the page that the move committed to, if it did. -/
def move (c : Carousel α) : Move α → Carousel α × Option Nat
  | .dragChanged dx => (c.dragChanged dx, none)
  | .dragEnded dx => c.dragEnded dx
  | .scrollTo name => c.scrollTo name

end Carousel
end HomeWidget
