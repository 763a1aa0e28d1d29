import HomeWidget.Proofs.Geometry
import HomeWidget.Proofs.Surface.Placement

/-!
# Surfaces of other sizes

The surface of a layout scales: on a surface so many times as wide and as high everything is in the same order and
so many times as large and as far from the origin. For a run of units is measured against the extent of its axis alone,
padding against the width of the surface, and what is compared on the way (the ends of an inset with the middle, a length
with nothing) keeps its order. Colours, texts and point sizes know nothing of the surface.

Main results: `Rect.inset_scale`, `spans_scale`, `placeLayout_scale`, `drawn_scale`, `render_scale`.
-/
namespace HomeWidget

open Scalar

/-! ## §1. Rectangles -/

/-- The extent, so many times as large. -/
def Size.scale (s : Size Rat) (k : Rat) : Size Rat := ⟨k * s.width, k * s.height⟩

/-- The rectangle, so many times as large and as far from the origin. -/
def Rect.scale (r : Rect Rat) (k : Rat) : Rect Rat := ⟨k * r.x0, k * r.y0, k * r.x1, k * r.y1⟩

/-- The rectangles of a primitive, so many times as large and as far from the origin; all else as it is. -/
def Primitive.scale (k : Rat) : Primitive Rat → Primitive Rat
  | .fill rect paint cornerRadius => .fill (rect.scale k) paint cornerRadius
  | .image i => .image { i with frame := i.frame.scale k, clip := i.clip.scale k }
  | .text run => .text { run with rect := run.rect.scale k, clip := run.clip.scale k }
  | .hitRegion rect link => .hitRegion (rect.scale k) link

variable {k : Rat}

namespace Rect

/-- The frame of a surface grows with the surface. -/
theorem ofSize_scale (hk : 0 < k) (s : Size Rat) : ofSize (s.scale k) = (ofSize s).scale k := by
  unfold ofSize sorted scale Size.scale
  simp only [least_eq_min, greatest_eq_max, zero_eq, zero_add, mul_min_of_nonneg _ _ hk.le, mul_max_of_nonneg _ _ hk.le,
    mul_zero]

/-- **An inset scales with its rectangle.** -/
theorem inset_scale (hk : 0 < k) (r : Rect Rat) (d : Rat) : (r.scale k).inset (k * d) = (r.inset d).scale k := by
  have hsign : k * d ≤ 0 ↔ d ≤ 0 := by
    rw [← not_lt, ← not_lt, mul_pos_iff_of_pos_left hk]
  rw [inset_eq, inset_eq]
  by_cases hd : d ≤ 0
  · rw [if_pos hd, if_pos (hsign.2 hd)]
  · rw [if_neg hd, if_neg (mt hsign.1 hd)]
    unfold scale
    simp only [← mul_add, ← mul_sub, mul_div_assoc, mul_min_of_nonneg _ _ hk.le, mul_max_of_nonneg _ _ hk.le]

end Rect

namespace Surface

/-! ## §2. Places -/

theorem gridToPixels_scale (units extent : Rat) : gridToPixels units (k * extent) = k * gridToPixels units extent := by
  unfold gridToPixels
  rw [mul_left_comm, mul_div_assoc]

/-- A length on the grid grows with the surface. -/
theorem gridLength_scale (hk : 0 < k) (units extent : Rat) : gridLength units (k * extent) = k * gridLength units extent := by
  unfold gridLength
  rw [gridToPixels_scale, greatest_eq_max, greatest_eq_max, zero_eq, mul_max_of_nonneg _ _ hk.le, mul_zero]

theorem runStart_scale (lengths : List Rat) (extent : Rat) : runStart lengths (k * extent) = k * runStart lengths extent := by
  unfold runStart centeringOffset
  rw [gridToPixels_scale, ← mul_sub, mul_div_assoc]

/-- The span, so many times as long and as far from the origin. -/
def scaleSpan (k : Rat) (s : Rat × Rat) : Rat × Rat := (k * s.1, k * s.2)

/-- The spans of a run grow with the surface. -/
theorem spansFrom_scale (hk : 0 < k) (start extent : Rat) (lengths : List Rat) :
    spansFrom (k * start) (k * extent) lengths = (spansFrom start extent lengths).map (scaleSpan k) := by
  induction lengths generalizing start with
  | nil => rfl
  | cons units rest ih =>
    unfold spansFrom
    dsimp only
    rw [gridLength_scale hk, ← mul_add, ih, List.map_cons]
    rfl

/-- **A run of units scales with its axis.** -/
theorem spans_scale (hk : 0 < k) (lengths : List Rat) (extent : Rat) :
    spans lengths (k * extent) = (spans lengths extent).map (scaleSpan k) := by
  unfold spans
  rw [runStart_scale, spansFrom_scale hk]

/-- The cell in a frame so many times as large. -/
def PlacedCell.scale (k : Rat) (c : PlacedCell Rat) : PlacedCell Rat := { c with frame := c.frame.scale k }

/-- The row in a band so many times as large. -/
def PlacedRow.scale (k : Rat) (r : PlacedRow Rat) : PlacedRow Rat :=
  { r with band := scaleSpan k r.band, cells := r.cells.map (PlacedCell.scale k) }

/-- Every frame in a row grows, and so every one in a layer. -/
theorem placeRow_scale (hk : 0 < k) (target : Size Rat) (row : Row Rat) (band : Rat × Rat) :
    placeRow (target.scale k) row (scaleSpan k band) = (placeRow target row band).scale k := by
  have hcolumns (widths : List Rat) : spans widths (target.scale k).width = _ := spans_scale hk widths target.width
  unfold placeRow PlacedRow.scale
  simp only [hcolumns, List.zip_map_right, List.zipIdx_map, List.map_map]
  rfl

theorem placeLayer_scale (hk : 0 < k) (target : Size Rat) (layer : Layer Rat) :
    placeLayer (target.scale k) layer = (placeLayer target layer).map (PlacedRow.scale k) := by
  have hbands (heights : List Rat) : spans heights (target.scale k).height = _ := spans_scale hk heights target.height
  unfold placeLayer
  simp only [hbands, List.zip_map_right, List.map_map]
  apply List.map_congr_left
  intro placed _
  exact placeRow_scale hk target placed.1 placed.2

/-- **The places of cells scale with the surface.** -/
theorem placeLayout_scale (hk : 0 < k) (target : Size Rat) (layout : Layout Rat) :
    placeLayout (target.scale k) layout = (placeLayout target layout).map (PlacedCell.scale k) := by
  unfold placeLayout
  simp only [placeLayer_scale hk, List.flatMap_map, List.map_flatMap]
  rfl

/-! ## §3. What is drawn -/

/-- What cells are drawn with, on a surface so many times as large. -/
def Context.scale (ctx : Context Rat) (k : Rat) : Context Rat := { ctx with target := ctx.target.scale k }

section

variable (ctx : Context Rat) (cell : Cell Rat) (frame content : Rect Rat)

theorem cellFill_scale :
    cellFill (ctx.scale k) cell (frame.scale k) = (cellFill ctx cell frame).map (Primitive.scale k) := by
  show ((ctx.paint? cell.backgroundColorStyle).map _).toList = _
  unfold cellFill
  cases ctx.paint? cell.backgroundColorStyle <;> rfl

theorem cellImage_scale :
    cellImage (ctx.scale k) cell (frame.scale k) (content.scale k)
      = (cellImage ctx cell frame content).map (Primitive.scale k) := by
  unfold cellImage
  cases cell.image with
  | none => rfl
  | some image =>
    show ((image.resolve? ctx.data).bind _).toList = (((image.resolve? ctx.data).bind _).toList).map _
    cases image.resolve? ctx.data <;> rfl

/-- The text of a cell is the same, in a larger frame. -/
theorem cellText_scale :
    cellText (ctx.scale k) cell (frame.scale k) (content.scale k)
      = (cellText ctx cell frame content).map (Primitive.scale k) := by
  unfold cellText
  cases cell.text with
  | none => rfl
  | some node =>
    show ((node.resolve? ctx.data).bind _).toList = (((node.resolve? ctx.data).bind _).toList).map _
    cases node.resolve? ctx.data with
    | none => rfl
    | some text =>
      show (if text.isEmpty then none else some _).toList = (if text.isEmpty then none else some _).toList.map _
      split <;> rfl

theorem cellLink_scale (index : Nat) :
    cellLink (ctx.scale k) cell index (frame.scale k) = (cellLink ctx cell index frame).map (Primitive.scale k) := by
  show (if ctx.inApp then [] else ((cell.linkUrl? ctx.data).map _).toList) = _
  unfold cellLink
  split
  next => rfl
  next => cases cell.linkUrl? ctx.data <;> rfl

end

/-- **What a cell shows scales with its frame.** -/
theorem drawn_scale (hk : 0 < k) (ctx : Context Rat) (c : PlacedCell Rat) :
    (c.scale k).drawn (ctx.scale k) = (c.drawn ctx).map (Primitive.scale k) := by
  have hpadding (units : Rat) :
      gridToPixels units (ctx.scale k).target.width = k * gridToPixels units ctx.target.width :=
    gridToPixels_scale units ctx.target.width
  show drawCell (ctx.scale k) c.index c.cell (c.frame.scale k) = (drawCell ctx c.index c.cell c.frame).map _
  unfold drawCell
  dsimp only
  rw [hpadding, Rect.inset_scale hk, cellFill_scale, cellImage_scale, cellText_scale, cellLink_scale, List.map_append,
    List.map_append, List.map_append]

theorem surfaceLink_scale (hk : 0 < k) (widget : Widget Rat) (target : Size Rat) (inApp : Bool) :
    surfaceLink widget (target.scale k) inApp = (surfaceLink widget target inApp).map (Primitive.scale k) := by
  unfold surfaceLink
  rw [Rect.ofSize_scale hk]
  split
  next => rfl
  next => cases widget.contentUrl? <;> rfl

/-- **A surface scales.** On a target so many times as wide and as high, a layout is drawn as the same primitives in the
same order, with all their rectangles so many times as large and as far from the origin. Nothing else changes. -/
theorem render_scale (reading : Reading Rat) (widget : Widget Rat) (layoutName : String) (target : Size Rat)
    (options : Options) (hlayout : (widget.layout? layoutName).isSome) (k : Rat) (hk : 0 < k) :
    render reading widget layoutName (target.scale k) options
      = (render reading widget layoutName target options).map (Primitive.scale k) := by
  obtain ⟨layout, hlayout⟩ := Option.isSome_iff_exists.1 hlayout
  rw [render_of_layout hlayout, render_of_layout hlayout, surfaceLink_scale hk, placeLayout_scale hk, List.map_append,
    List.flatMap_map, List.map_flatMap]
  have hcell (c : PlacedCell Rat) : (c.scale k).drawn (contextOf reading widget layout (target.scale k) options.inApp)
      = (c.drawn (contextOf reading widget layout target options.inApp)).map (Primitive.scale k) :=
    drawn_scale hk (contextOf reading widget layout target options.inApp) c
  simp only [hcell]

/-- A live surface a third as large. Its first row has a cell whose image is padded, one of negative width, and one with
more padding than it has room for. -/
theorem render_scale_third :
    let cells : List (Cell Rat) :=
      [⟨5, some 1, none, none, some ⟨none, some "http://i", some .circle⟩, none⟩, ⟨-1, some 1, none, none, none, none⟩,
        ⟨7, some 9, some "tint", none, some ⟨some "image", none, none⟩, some "link"⟩]
    let layer : Layer Rat := ⟨some [⟨6, some cells⟩, ⟨-2, none⟩, ⟨3, some []⟩]⟩
    let styles : Styles := ⟨some (.ofList [("tint", ⟨none, "#ffffff"⟩)]), none⟩
    let widget : Widget Rat :=
      ⟨"http://w", ⟨"n", none, none, none,
        .ofList [("image", "http://j"), ("link", "http://l"), ("content_url", "http://c")], none, none, none,
        .ofList [("main", ⟨.small, styles, [layer]⟩)]⟩⟩
    let target : Size Rat := ⟨120, 60⟩
    0 < (1 / 3 : Rat) ∧ target.scale (1 / 3) = ⟨40, 20⟩
      ∧ render (.rational id) widget "main" (target.scale (1 / 3)) ⟨false, .light⟩
        = (render (.rational id) widget "main" target ⟨false, .light⟩).map (Primitive.scale (1 / 3))
      ∧ (render (.rational id) widget "main" target ⟨false, .light⟩).map Primitive.rect
        = [⟨0, 0, 120, 60⟩, ⟨10, 35 / 2, 40, 55 / 2⟩, ⟨50, 15 / 2, 120, 75 / 2⟩, ⟨85, 45 / 2, 85, 45 / 2⟩,
            ⟨50, 15 / 2, 120, 75 / 2⟩] := by
  intro cells layer styles widget target
  have hthird : 0 < (1 / 3 : Rat) := by norm_num
  exact ⟨hthird, by decide +kernel, render_scale (.rational id) widget "main" target ⟨false, .light⟩ rfl (1 / 3) hthird,
    by decide +kernel⟩

end Surface
end HomeWidget
