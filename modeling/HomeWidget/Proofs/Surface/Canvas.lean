import HomeWidget.Proofs.Geometry
import HomeWidget.Surface.Canvas

/-!
# Pixels of a painted surface

What a surface shows in a pixel is told by the primitives that cover its centre: their colours there, laid over one
another in order, over the colour of the empty canvas. Whether a primitive covers a point is said without the spans
that painting runs through, which only keep it from looking at pixels that cannot be covered; no span leaves the
canvas.

Main results: `pixelSpan_eq`, `getElem_paintWhere`, `getElem_paint`, `rasterize_pixels`.
-/
namespace HomeWidget.Surface

open Scalar

/-! ## §1. Spans of pixels -/

/-- The first pixel of a span and the one after its last, cut off at the ends of the axis. -/
theorem pixelSpan_eq (low high : Rat) (limit : Nat) :
    pixelSpan low high limit = (min ⌊low⌋.toNat limit, min ⌈high⌉.toNat limit) := by
  unfold pixelSpan
  rw [floor_eq, ceil_eq]
  exact Prod.ext (toNat_clamp limit ⌊low⌋) (toNat_clamp limit ⌈high⌉)

/-- The pixel is one of those that painting an area looks at, on a canvas of this size. -/
def Reaches (area : Rect Rat) (width height x y : Nat) : Prop :=
  ((pixelSpan area.x0 area.x1 width).1 ≤ x ∧ x < (pixelSpan area.x0 area.x1 width).2)
    ∧ (pixelSpan area.y0 area.y1 height).1 ≤ y ∧ y < (pixelSpan area.y0 area.y1 height).2

/-- No pixel outside the canvas is looked at. -/
theorem Reaches.inside {area : Rect Rat} {width height x y : Nat} (h : Reaches area width height x y) :
    x < width ∧ y < height := by
  unfold Reaches at h
  simp only [pixelSpan_eq] at h
  omega

/-- The centre of a pixel. -/
theorem pixelCenter_eq (x y : Nat) : pixelCenter x y = (⟨x + 1 / 2, y + 1 / 2⟩ : Point Rat) := by
  unfold pixelCenter
  rw [half_eq]
  rfl

/-- A pixel whose centre lies in a span is one of the pixels of the span. -/
theorem mem_pixelSpan {low high : Rat} {limit k : Nat} (hk : k < limit) (hlow : low ≤ (k : Rat) + 1 / 2)
    (hhigh : (k : Rat) + 1 / 2 < high) : (pixelSpan low high limit).1 ≤ k ∧ k < (pixelSpan low high limit).2 := by
  have hfloor : ⌊low⌋ < (k : Int) + 1 := Int.floor_lt.2 (by push_cast; linarith)
  have hceil : (k : Int) < ⌈high⌉ := Int.lt_ceil.2 (by push_cast; linarith)
  rw [pixelSpan_eq]
  dsimp only
  omega

/-- **Every covered pixel is looked at.** -/
theorem reaches_of_holds {area : Rect Rat} {width height x y : Nat} (hx : x < width) (hy : y < height)
    (h : area.Holds (pixelCenter x y)) : Reaches area width height x y := by
  rw [pixelCenter_eq] at h
  exact ⟨mem_pixelSpan hx h.1 h.2.1, mem_pixelSpan hy h.2.2.1 h.2.2.2⟩

/-! ## §2. One primitive -/

/-- **What painting does to one pixel.** The shape need only lie within its bounds where it is not cut off: then the
span of pixels that is run through misses nothing. -/
theorem getElem_paintWhere {width height : Nat} (canvas : Canvas Rat width height) {bounds clip : Rect Rat}
    {inside : Point Rat → Bool} (color : Point Rat → Rgba Rat) {x y : Nat} (hx : x < width) (hy : y < height)
    (hbounds : bounds.Proper → clip.Holds (pixelCenter x y) → inside (pixelCenter x y) = true →
      bounds.Holds (pixelCenter x y)) :
    (canvas.paintWhere bounds clip inside color)[y][x]
      = if bounds.Proper ∧ clip.Holds (pixelCenter x y) ∧ inside (pixelCenter x y) = true then
          (color (pixelCenter x y)).onto canvas[y][x]
        else canvas[y][x] := by
  have hcovered : bounds.Proper ∧ clip.Holds (pixelCenter x y) ∧ inside (pixelCenter x y) = true →
      (bounds.intersect clip).Holds (pixelCenter x y) := by
    rintro ⟨hproper, hclip, hinside⟩
    exact Rect.holds_intersect.2 ⟨hbounds hproper hclip hinside, hclip⟩
  unfold Canvas.paintWhere
  dsimp only
  by_cases harea : (bounds.intersect clip).Proper
  · rw [if_neg (Rect.proper_iff.1 harea)]
    by_cases hspan : Reaches (bounds.intersect clip) width height x y
    · obtain ⟨hcolumns, hrows⟩ := hspan
      simp only [Vector.getElem_mapIdx, if_pos hrows, if_pos hcolumns, Bool.and_eq_true, Rect.contains_iff,
        harea.of_intersect, true_and]
    · -- the pixel is handed on, and so it should be: its centre is not covered
      rw [if_neg fun h => hspan (reaches_of_holds hx hy (hcovered h)), Vector.getElem_mapIdx]
      split
      next hrows => rw [Vector.getElem_mapIdx, if_neg fun hcolumns => hspan ⟨hcolumns, hrows⟩]
      next => rfl
  · rw [if_pos (by rwa [Rect.proper_iff, not_not] at harea), if_neg fun h => harea (hcovered h).proper]

/-- The point lies in the shape of an image in its frame. -/
def HoldsInMask : ImageMask → Rect Rat → Point Rat → Prop
  | .rectangle, frame, c => frame.Holds c
  | .circle, frame, c => frame.HoldsInCircle c

/-- The primitive covers the point: a filling in its rectangle with rounded corners, an image within its clip in the
shape of its frame. Texts and areas to activate cover nothing, and neither does what is inverted or empty. -/
def Covers : Primitive Rat → Point Rat → Prop
  | .fill rect _ cornerRadius, c => rect.Holds c ∧ rect.HoldsRounded (max cornerRadius 0) c
  | .image i, c => i.clip.Holds c ∧ HoldsInMask i.mask i.frame c
  | .text _, _ => False
  | .hitRegion _ _, _ => False

/-- The colour that a primitive has at a point that it covers; images have the placeholder's. -/
def colorOver (placeholder : Rgba Rat) : Primitive Rat → Point Rat → Rgba Rat
  | .fill rect (.gradient g) _, c => g.colorAt rect c
  | .fill _ (.solid color) _, _ => color
  | _, _ => placeholder

/-- The shape of an image lies within its frame. -/
theorem HoldsInMask.holds {mask : ImageMask} {frame : Rect Rat} {c : Point Rat} (h : HoldsInMask mask frame c) :
    frame.Holds c := by
  cases mask with
  | rectangle => exact h
  | circle => exact Rect.HoldsInCircle.holds h

theorem maskContains_iff {mask : ImageMask} {frame : Rect Rat} {c : Point Rat} (h : frame.Proper) :
    maskContains mask frame c = true ↔ HoldsInMask mask frame c := by
  cases mask with
  | rectangle => exact Rect.contains_iff
  | circle => exact Rect.circleContains_iff h

/-- What covers a point is neither inverted nor empty. -/
theorem Covers.proper {p : Primitive Rat} {c : Point Rat} (h : Covers p c) : p.rect.Proper := by
  cases p with
  | fill rect paint cornerRadius => exact h.1.proper
  | image i => exact h.2.holds.proper
  | text run => exact h.elim
  | hitRegion rect link => exact h.elim

/-- A filling covers the points that its bounds and the test for rounded corners let through. -/
theorem covers_fill {rect : Rect Rat} {paint : Paint Rat} {cornerRadius : Rat} {c : Point Rat} :
    Covers (.fill rect paint cornerRadius) c
      ↔ rect.Proper ∧ rect.Holds c ∧ rect.roundedContains (greatest cornerRadius 0.0) c = true := by
  rw [greatest_eq_max, zero_eq]
  constructor
  · rintro ⟨hrect, hround⟩
    exact ⟨hrect.proper, hrect, (Rect.roundedContains_iff hrect.proper (le_max_right _ _)).2 hround⟩
  · rintro ⟨hproper, hrect, hround⟩
    exact ⟨hrect, (Rect.roundedContains_iff hproper (le_max_right _ _)).1 hround⟩

/-- An image covers the points that its bounds, its clip and the test for its mask let through. -/
theorem covers_image {i : ImagePlacement Rat} {c : Point Rat} :
    Covers (.image i) c ↔ i.frame.Proper ∧ i.clip.Holds c ∧ maskContains i.mask i.frame c = true := by
  constructor
  · rintro ⟨hclip, hmask⟩
    exact ⟨hmask.holds.proper, hclip, (maskContains_iff hmask.holds.proper).2 hmask⟩
  · rintro ⟨hproper, hclip, hmask⟩
    exact ⟨hclip, (maskContains_iff hproper).1 hmask⟩

instance (p : Primitive Rat) (c : Point Rat) : Decidable (Covers p c) :=
  match p with
  | .fill _ _ _ => decidable_of_iff _ covers_fill.symm
  | .image _ => decidable_of_iff _ covers_image.symm
  | .text _ => isFalse id
  | .hitRegion _ _ => isFalse id

/-- **What a primitive does to one pixel**: its colour is laid over it, if it covers the centre. -/
theorem getElem_paint {width height : Nat} (placeholder : Rgba Rat) (canvas : Canvas Rat width height)
    (p : Primitive Rat) {x y : Nat} (hx : x < width) (hy : y < height) :
    (canvas.paint placeholder p)[y][x]
      = if Covers p (pixelCenter x y) then (colorOver placeholder p (pixelCenter x y)).onto canvas[y][x]
        else canvas[y][x] := by
  cases p with
  | fill rect paint cornerRadius =>
    have hcolor : paint.colorAt rect (pixelCenter x y)
        = colorOver placeholder (.fill rect paint cornerRadius) (pixelCenter x y) := by
      cases paint <;> rfl
    unfold Canvas.paint
    dsimp only
    rw [getElem_paintWhere canvas _ hx hy fun _ hclip _ => hclip, hcolor]
    exact if_congr covers_fill.symm rfl rfl
  | image i =>
    unfold Canvas.paint
    dsimp only
    rw [getElem_paintWhere canvas _ hx hy fun hproper _ hmask => ((maskContains_iff hproper).1 hmask).holds]
    exact if_congr covers_image.symm rfl rfl
  | text run => exact (if_neg id).symm
  | hitRegion rect link => exact (if_neg id).symm

/-! ## §3. A list of primitives -/

/-- The colour of a surface at a point: those of the primitives that cover it, laid over one another in order, over
the colour of the empty canvas. -/
def colorOf (primitives : List (Primitive Rat)) (settings : PaintSettings Rat) (c : Point Rat) : Rgba Rat :=
  (primitives.filter fun p => Covers p c).foldl (fun below p => (colorOver settings.placeholder p c).onto below)
    settings.empty

/-- **A pixel of many primitives** is painted by those that cover it, one over the other, by induction on the
primitives. -/
theorem getElem_foldl_paint {width height : Nat} (placeholder : Rgba Rat) (primitives : List (Primitive Rat))
    (canvas : Canvas Rat width height) {x y : Nat} (hx : x < width) (hy : y < height) :
    (primitives.foldl (Canvas.paint placeholder) canvas)[y][x]
      = (primitives.filter fun p => Covers p (pixelCenter x y)).foldl
          (fun below p => (colorOver placeholder p (pixelCenter x y)).onto below) canvas[y][x] := by
  induction primitives generalizing canvas with
  | nil => rfl
  | cons p rest ih =>
    rw [List.foldl_cons, ih, getElem_paint placeholder canvas p hx hy]
    by_cases hcovers : Covers p (pixelCenter x y)
    · rw [if_pos hcovers, List.filter_cons_of_pos (by simpa using hcovers), List.foldl_cons]
    · rw [if_neg hcovers, List.filter_cons_of_neg (by simpa using hcovers)]

/-- A canvas of one colour has it in every pixel. -/
theorem getElem_uniform {width height : Nat} (color : Rgba Rat) {x y : Nat} (hx : x < width) (hy : y < height) :
    (Vector.replicate height (Vector.replicate width color))[y][x] = color := by
  rw [Vector.getElem_replicate, Vector.getElem_replicate]

theorem getElem_paintAll {width height : Nat} (primitives : List (Primitive Rat)) (settings : PaintSettings Rat)
    {x y : Nat} (hx : x < width) (hy : y < height) :
    (paintAll primitives width height settings)[y][x] = colorOf primitives settings (pixelCenter x y) := by
  unfold paintAll colorOf
  rw [getElem_foldl_paint _ _ _ hx hy, getElem_uniform]

/-- The levels of a pixel of a picture. -/
def Picture.pixel? (p : Picture) (x y : Nat) : Option (List UInt8) := p.rows[y]?.bind (·[x]?)

theorem pixel?_toPicture {width height : Nat} (canvas : Canvas Rat width height) {x y : Nat} (hx : x < width)
    (hy : y < height) : canvas.toPicture.pixel? x y = some canvas[y][x].levels := by
  unfold Picture.pixel? Canvas.toPicture
  simp only [List.getElem?_map, Vector.getElem?_toList, Vector.getElem?_eq_getElem hy, Option.map_some,
    Option.bind_some, Vector.getElem?_eq_getElem hx]

/-- **The picture of a surface, pixel by pixel.** On a canvas that has a pixel at all a picture is made, with a row of
`width` pixels for each of `height` positions. No area of the surface leads to a pixel outside the canvas. Each
pixel has the levels of the colour of the surface at its centre, the fold over just those primitives that cover it. -/
theorem rasterize_pixels (primitives : List (Primitive Rat)) (width height : Nat) (settings : PaintSettings Rat)
    (hwidth : width ≠ 0) (hheight : height ≠ 0) :
    ∃ picture, rasterize primitives width height settings = .ok picture
      ∧ (picture.width = width ∧ picture.height = height)
      ∧ (picture.rows.length = height ∧ ∀ row ∈ picture.rows, row.length = width)
      ∧ (∀ (area : Rect Rat) (x y : Nat), Reaches area width height x y → x < width ∧ y < height)
      ∧ (∀ (p : Primitive Rat) (c : Point Rat), Covers p c → p.rect.Proper)
      ∧ ∀ x y, x < width → y < height →
          picture.pixel? x y = some (colorOf primitives settings ⟨x + 1 / 2, y + 1 / 2⟩).levels := by
  have hempty : ¬(width = 0 ∨ height = 0) := fun h => h.elim hwidth hheight
  refine ⟨(paintAll primitives width height settings).toPicture, if_neg hempty, ⟨rfl, rfl⟩, ⟨?_, ?_⟩,
    fun area x y h => h.inside, fun p c h => h.proper, ?_⟩
  · unfold Canvas.toPicture
    simp only [List.length_map, Vector.length_toList]
  · intro row hrow
    obtain ⟨pixels, -, rfl⟩ := List.mem_map.1 hrow
    rw [List.length_map, Vector.length_toList]
  · intro x y hx hy
    rw [pixel?_toPicture _ hx hy, getElem_paintAll primitives settings hx hy, pixelCenter_eq]

/-- A red square in the first pixel, a disc over all three of which its clip leaves no more than the first and a half of
the second, an inverted square, and a half clear gradient of one colour over the first two. The background is half
clear: it shows through the gradient in the second pixel, and stands alone in the third. -/
theorem rasterize_pixels_overlaid :
    let veil : Rgba Rat := ⟨0, 0, 1, 1 / 2⟩
    let primitives : List (Primitive Rat) :=
      [.fill ⟨0, 0, 1, 1⟩ (.solid ⟨1, 0, 0, 1⟩) (-3),
        .image ⟨⟨0, -1, 3, 2⟩, ⟨0, 0, 3 / 2, 1⟩, "", .circle⟩,
        .fill ⟨2, 0, 1, 1⟩ (.solid Rgba.white) 0,
        .fill ⟨-1, 0, 2, 1⟩ (.gradient (.between .top .bottom veil veil)) 0]
    let settings : PaintSettings Rat := ⟨some (240, 120, 0, 128), Rgba.black⟩
    ∃ picture, rasterize primitives 3 1 settings = .ok picture
      ∧ picture.pixel? 0 0 = some [0, 0, 128, 255]
      ∧ picture.pixel? 1 0 = some [80, 40, 170, 192]
      ∧ picture.pixel? 2 0 = some [240, 120, 0, 128] := by
  intro veil primitives settings
  obtain ⟨picture, hpicture, -, -, -, -, hpixels⟩ := rasterize_pixels primitives 3 1 settings (by decide) (by decide)
  refine ⟨picture, hpicture, (hpixels 0 0 (by decide) (by decide)).trans ?_,
    (hpixels 1 0 (by decide) (by decide)).trans ?_, (hpixels 2 0 (by decide) (by decide)).trans ?_⟩
  · decide +kernel
  · decide +kernel
  · decide +kernel

end HomeWidget.Surface
