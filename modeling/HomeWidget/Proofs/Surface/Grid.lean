import HomeWidget.Proofs.Geometry
import HomeWidget.Proofs.Surface.Placement

/-!
# The grid of a surface

Rows and cells are runs of spans along an axis: each begins where the one before it ends, none is longer than its
units ask for and none is inverted, and the run is centred on the axis, whether it leaves room or overflows. What a
cell shows keeps to its frame. So a layout whose units fit into the grid stays on the surface.

Main results: `insetIn_inset`, `centred_spans`, `keepsTo_drawn`, `onGrid_placeLayer`, `grid_geometry`.
-/
namespace HomeWidget

open Scalar

/-! ## §1. Insets -/

namespace Rect

/-- The rectangle lies within another one, is not inverted, and has the same middle. -/
structure InsetIn (inner outer : Rect Rat) : Prop where
  horizontal : outer.x0 ≤ inner.x0 ∧ inner.x0 ≤ inner.x1 ∧ inner.x1 ≤ outer.x1
  vertical : outer.y0 ≤ inner.y0 ∧ inner.y0 ≤ inner.y1 ∧ inner.y1 ≤ outer.y1
  center : inner.center = outer.center

/-- One axis of an inset: up to the middle at most, from both sides. -/
theorem inset_span {a b d : Rat} (hab : a ≤ b) (hd : 0 < d) :
    (a ≤ min (a + d) ((a + b) / 2) ∧ min (a + d) ((a + b) / 2) ≤ max (b - d) ((a + b) / 2)
        ∧ max (b - d) ((a + b) / 2) ≤ b)
      ∧ min (a + d) ((a + b) / 2) + max (b - d) ((a + b) / 2) = a + b := by
  rcases le_total (a + d) ((a + b) / 2) with h | h
  · rw [min_eq_left h, max_eq_left (by linarith)]
    exact ⟨⟨by linarith, by linarith, by linarith⟩, by ring⟩
  · -- padding beyond the middle: both ends meet there
    rw [min_eq_right h, max_eq_right (by linarith)]
    exact ⟨⟨by linarith, by linarith, by linarith⟩, by ring⟩

/-- **An inset stays inside**, and never turns a rectangle over. -/
theorem insetIn_inset {r : Rect Rat} (hx : r.x0 ≤ r.x1) (hy : r.y0 ≤ r.y1) (d : Rat) : (r.inset d).InsetIn r := by
  rw [inset_eq]
  split
  next => exact ⟨⟨le_rfl, hx, le_rfl⟩, ⟨le_rfl, hy, le_rfl⟩, rfl⟩
  next h =>
    obtain ⟨hhorizontal, hsumx⟩ := inset_span hx (not_le.1 h)
    obtain ⟨hvertical, hsumy⟩ := inset_span hy (not_le.1 h)
    refine ⟨hhorizontal, hvertical, ?_⟩
    unfold center
    rw [hsumx, hsumy]

end Rect

namespace Surface

/-! ## §2. Runs of spans -/

/-- The spans follow one another without a gap from one position to another, none of them inverted. -/
inductive Tiles : Rat → List (Rat × Rat) → Rat → Prop
  | nil (a : Rat) : Tiles a [] a
  | cons {a b c : Rat} {rest : List (Rat × Rat)} (h : a ≤ b) (hrest : Tiles b rest c) : Tiles a ((a, b) :: rest) c

theorem Tiles.le {a c : Rat} {spans : List (Rat × Rat)} (h : Tiles a spans c) : a ≤ c := by
  induction h with
  | nil => exact le_rfl
  | cons hab _ ih => exact hab.trans ih

/-- Every span of a run lies within it. -/
theorem Tiles.within {a c : Rat} {spans : List (Rat × Rat)} (h : Tiles a spans c) :
    ∀ s ∈ spans, a ≤ s.1 ∧ s.1 ≤ s.2 ∧ s.2 ≤ c := by
  induction h with
  | nil => simp
  | cons hab hrest ih =>
    intro s hs
    rcases List.mem_cons.1 hs with rfl | hs
    · exact ⟨le_rfl, hab, hrest.le⟩
    · obtain ⟨hlow, hspan, hhigh⟩ := ih s hs
      exact ⟨hab.trans hlow, hspan, hhigh⟩

/-- The length of so many units of the grid along an axis; what is negative has none. -/
def unitLength (extent units : Rat) : Rat := max units 0 * extent / 12

theorem gridLength_eq {extent : Rat} (h : 0 ≤ extent) (units : Rat) : gridLength units extent = unitLength extent units := by
  have hunit : 0 ≤ extent / 12 := by linarith
  unfold gridLength gridToPixels unitLength
  rw [greatest_eq_max, twelve_eq, zero_eq, mul_div_assoc, mul_div_assoc, max_mul_of_nonneg _ _ hunit, zero_mul]

theorem unitLength_nonneg {extent : Rat} (h : 0 ≤ extent) (units : Rat) : 0 ≤ unitLength extent units :=
  div_nonneg (mul_nonneg (le_max_right _ _) h) (by norm_num)

/-- Units that are negative take no room. -/
theorem sum_unitLength (extent : Rat) (lengths : List Rat) :
    (lengths.map (unitLength extent)).sum = (lengths.map (max · 0)).sum * extent / 12 := by
  induction lengths with
  | nil => simp
  | cons units rest ih =>
    rw [List.map_cons, List.map_cons, List.sum_cons, List.sum_cons, ih]
    unfold unitLength
    ring

/-- The spans of a run have the lengths asked for, and tile a part of an axis that is centred on it. -/
structure Centred (units : List Rat) (extent : Rat) (spans : List (Rat × Rat)) : Prop where
  lengths : spans.map (fun s => s.2 - s.1) = units.map (unitLength extent)
  tiles : Tiles ((extent - (units.map (unitLength extent)).sum) / 2) spans
    ((extent + (units.map (unitLength extent)).sum) / 2)

theorem lengths_spansFrom {extent : Rat} (h : 0 ≤ extent) (start : Rat) (units : List Rat) :
    (spansFrom start extent units).map (fun s => s.2 - s.1) = units.map (unitLength extent) := by
  induction units generalizing start with
  | nil => rfl
  | cons first rest ih =>
    unfold spansFrom
    rw [List.map_cons, List.map_cons, ih, gridLength_eq h, add_sub_cancel_left]

theorem tiles_spansFrom {extent : Rat} (h : 0 ≤ extent) (start : Rat) (units : List Rat) :
    Tiles start (spansFrom start extent units) (start + (units.map (unitLength extent)).sum) := by
  induction units generalizing start with
  | nil =>
    show Tiles start [] (start + 0)
    rw [add_zero]
    exact .nil start
  | cons first rest ih =>
    unfold spansFrom
    rw [gridLength_eq h, List.map_cons, List.sum_cons, ← add_assoc]
    exact .cons (le_add_of_nonneg_right (unitLength_nonneg h first)) (ih _)

/-- A run starts at half of the room that it leaves. -/
theorem runStart_eq (extent : Rat) (units : List Rat) :
    runStart units extent = (extent - (units.map (unitLength extent)).sum) / 2 := by
  unfold runStart centeringOffset gridToPixels
  rw [sum_unitLength, sum_eq_sum, twelve_eq, two_eq]
  simp only [greatest_eq_max, zero_eq]

/-- **A run is centred**, and its spans are as long as they should be. -/
theorem centred_spans {extent : Rat} (h : 0 ≤ extent) (units : List Rat) :
    Centred units extent (spans units extent) where
  lengths := lengths_spansFrom h _ units
  tiles := by
    have htiles := tiles_spansFrom h (runStart units extent) units
    have hend : runStart units extent + (units.map (unitLength extent)).sum
        = (extent + (units.map (unitLength extent)).sum) / 2 := by
      rw [runStart_eq]
      ring
    rw [hend, runStart_eq] at htiles
    unfold spans
    rwa [runStart_eq]

/-- The units of a run fit into the grid. -/
def FitsGrid (units : List Rat) : Prop := (units.map (max · 0)).sum ≤ 12

instance (units : List Rat) : Decidable (FitsGrid units) := inferInstanceAs (Decidable (_ ≤ _))

/-- A run that fits into the grid stays on its axis. -/
theorem Centred.inside {units : List Rat} {extent : Rat} {spans : List (Rat × Rat)} (hc : Centred units extent spans)
    (h : 0 ≤ extent) (hfits : FitsGrid units) : ∀ s ∈ spans, 0 ≤ s.1 ∧ s.1 ≤ s.2 ∧ s.2 ≤ extent := by
  have hsum : (units.map (unitLength extent)).sum ≤ extent := by
    have hle := mul_le_mul_of_nonneg_right hfits h
    rw [sum_unitLength]
    linarith
  intro s hs
  obtain ⟨hlow, hspan, hhigh⟩ := hc.tiles.within s hs
  exact ⟨by linarith, hspan, by linarith⟩

/-! ## §3. What cells show -/

/-- The primitive keeps to the frame of a cell: a background and an area to activate fill it, an image and a text are
cut off at its edges and set inside it. -/
def KeepsTo (frame : Rect Rat) : Primitive Rat → Prop
  | .fill rect _ _ => rect = frame
  | .image i => i.clip = frame ∧ i.frame.InsetIn frame
  | .text run => run.clip = frame ∧ run.rect.InsetIn frame
  | .hitRegion rect _ => rect = frame

/-- **A cell keeps to its frame**, whatever its padding. -/
theorem keepsTo_drawn (ctx : Context Rat) {c : PlacedCell Rat} (hx : c.frame.x0 ≤ c.frame.x1)
    (hy : c.frame.y0 ≤ c.frame.y1) : ∀ p ∈ c.drawn ctx, KeepsTo c.frame p := by
  have hcontent : (c.content ctx).InsetIn c.frame := Rect.insetIn_inset hx hy _
  intro p hp
  rcases drawn_cases hp with
    ⟨paint, -, rfl⟩ | ⟨image, source, -, -, rfl⟩ | ⟨node, text, -, -, -, rfl⟩ | ⟨url, -, -, rfl⟩
  · rfl
  · exact ⟨rfl, hcontent⟩
  · exact ⟨rfl, hcontent⟩
  · rfl

/-! ## §4. Layers -/

/-- The rows of a layer and their cells are placed on the grid of a surface: the bands of the rows and, in each band,
the frames of the cells are centred runs. -/
structure OnGrid (target : Size Rat) (layer : Layer Rat) (placed : List (PlacedRow Rat)) : Prop where
  arranges : Arranges layer placed
  bands : Centred ((layer.rows.getD []).map (·.height)) target.height (placed.map (·.band))
  columns : ∀ r ∈ placed, Centred ((r.row.cells.getD []).map (·.width)) target.width
    (r.cells.map fun c => (c.frame.x0, c.frame.x1))
  share : ∀ r ∈ placed, ∀ c ∈ r.cells, (c.frame.y0, c.frame.y1) = r.band

theorem onGrid_placeLayer {target : Size Rat} (hwidth : 0 ≤ target.width) (hheight : 0 ≤ target.height)
    (layer : Layer Rat) : OnGrid target layer (placeLayer target layer) where
  arranges := arranges_placeLayer target layer
  bands := by
    rw [bands_placeLayer]
    exact centred_spans hheight _
  columns := by
    intro r hr
    obtain ⟨⟨row, band⟩, -, rfl⟩ := List.mem_map.1 hr
    rw [columns_placeRow]
    exact centred_spans hwidth _
  share := by
    intro r hr c hc
    obtain ⟨⟨row, band⟩, -, rfl⟩ := List.mem_map.1 hr
    exact band_of_mem_placeRow hc

variable {target : Size Rat} {layer : Layer Rat} {placed : List (PlacedRow Rat)}

/-- No cell is turned over. -/
theorem OnGrid.upright (h : OnGrid target layer placed) {r : PlacedRow Rat} (hr : r ∈ placed) {c : PlacedCell Rat}
    (hc : c ∈ r.cells) : c.frame.x0 ≤ c.frame.x1 ∧ c.frame.y0 ≤ c.frame.y1 := by
  obtain ⟨-, hx, -⟩ := (h.columns r hr).tiles.within _ (List.mem_map_of_mem hc)
  obtain ⟨-, hy, -⟩ := h.bands.tiles.within _ (List.mem_map_of_mem hr)
  rw [← h.share r hr c hc] at hy
  exact ⟨hx, hy⟩

/-- The rectangle lies on the surface, and is not inverted. -/
def OnSurface (target : Size Rat) (r : Rect Rat) : Prop :=
  (0 ≤ r.x0 ∧ r.x0 ≤ r.x1 ∧ r.x1 ≤ target.width) ∧ 0 ≤ r.y0 ∧ r.y0 ≤ r.y1 ∧ r.y1 ≤ target.height

theorem OnSurface.of_insetIn {inner outer : Rect Rat} (h : OnSurface target outer) (hinner : inner.InsetIn outer) :
    OnSurface target inner := by
  obtain ⟨⟨hx0, -, hx1⟩, hy0, -, hy1⟩ := h
  obtain ⟨hl, hw, hr⟩ := hinner.horizontal
  obtain ⟨ht, hh, hb⟩ := hinner.vertical
  exact ⟨⟨hx0.trans hl, hw, hr.trans hx1⟩, hy0.trans ht, hh, hb.trans hy1⟩

/-- The units of a layer fit into the grid: those of its rows, and those of the cells of each row. -/
def LayerFits (layer : Layer Rat) : Prop :=
  FitsGrid ((layer.rows.getD []).map (·.height))
    ∧ ∀ row ∈ layer.rows.getD [], FitsGrid ((row.cells.getD []).map (·.width))

instance (layer : Layer Rat) : Decidable (LayerFits layer) := inferInstanceAs (Decidable (_ ∧ _))

/-- The frames of a layer that fits into the grid lie on the surface. -/
theorem OnGrid.onSurface (h : OnGrid target layer placed) (hwidth : 0 ≤ target.width) (hheight : 0 ≤ target.height)
    (hfits : LayerFits layer) {r : PlacedRow Rat} (hr : r ∈ placed) {c : PlacedCell Rat} (hc : c ∈ r.cells) :
    OnSurface target c.frame := by
  have hrow : r.row ∈ layer.rows.getD [] := by
    rw [← h.arranges.rows]
    exact List.mem_map_of_mem hr
  have hx := (h.columns r hr).inside hwidth (hfits.2 _ hrow) _ (List.mem_map_of_mem hc)
  have hy := h.bands.inside hheight hfits.1 _ (List.mem_map_of_mem hr)
  rw [← h.share r hr c hc] at hy
  exact ⟨hx, hy⟩

/-! ## §5. The whole surface -/

/-- All rectangles of a primitive: where it is, and where it is cut off. -/
def areasOf : Primitive Rat → List (Rect Rat)
  | .fill rect _ _ => [rect]
  | .image i => [i.frame, i.clip]
  | .text run => [run.rect, run.clip]
  | .hitRegion rect _ => [rect]

theorem onSurface_of_keepsTo {frame : Rect Rat} (h : OnSurface target frame) {p : Primitive Rat} (hp : KeepsTo frame p) :
    ∀ r ∈ areasOf p, OnSurface target r := by
  cases p with
  | fill rect paint cornerRadius =>
    obtain rfl : rect = frame := hp
    simpa [areasOf] using h
  | image i =>
    obtain ⟨rfl, hinset⟩ := hp
    simpa [areasOf] using And.intro (h.of_insetIn hinset) h
  | text run =>
    obtain ⟨rfl, hinset⟩ := hp
    simpa [areasOf] using And.intro (h.of_insetIn hinset) h
  | hitRegion rect link =>
    obtain rfl : rect = frame := hp
    simpa [areasOf] using h

/-- The area behind the surface is the surface. -/
theorem onSurface_surfaceLink (hwidth : 0 ≤ target.width) (hheight : 0 ≤ target.height) (widget : Widget Rat)
    (inApp : Bool) : ∀ p ∈ surfaceLink widget target inApp, ∀ r ∈ areasOf p, OnSurface target r := by
  intro p hp r hr
  unfold surfaceLink at hp
  split at hp
  next => cases hp
  next =>
    obtain ⟨url, -, rfl⟩ := Option.map_eq_some_iff.1 (Option.mem_toList.1 hp)
    obtain rfl := List.mem_singleton.1 hr
    unfold Rect.ofSize Rect.sorted OnSurface
    simp only [least_eq_min, greatest_eq_max, zero_eq, zero_add, min_eq_left hwidth, min_eq_left hheight,
      max_eq_right hwidth, max_eq_right hheight]
    exact ⟨⟨le_rfl, hwidth, le_rfl⟩, le_rfl, hheight, le_rfl⟩

/-- **The geometry of a layout.** A surface of a layout is drawn cell by cell, in places on its grid: in every layer
the bands of the rows are a centred run, in every row the frames of the cells are one and share its band, and what a
cell shows keeps to its frame. If the units of every layer fit into the grid, then all that is drawn lies on the
surface. -/
theorem grid_geometry (reading : Reading Rat) (widget : Widget Rat) (layoutName : String) (layout : Layout Rat)
    (target : Size Rat) (options : Options) (hlayout : widget.layout? layoutName = some layout)
    (hwidth : 0 ≤ target.width) (hheight : 0 ≤ target.height) :
    let drawn := fun c : PlacedCell Rat => c.drawn (contextOf reading widget layout target options.inApp)
    render reading widget layoutName target options
        = surfaceLink widget target options.inApp ++ (placeLayout target layout).flatMap drawn
      ∧ (∀ layer ∈ layout.layers, OnGrid target layer (placeLayer target layer)
          ∧ ∀ r ∈ placeLayer target layer, ∀ c ∈ r.cells, ∀ p ∈ drawn c, KeepsTo c.frame p)
      ∧ ((∀ layer ∈ layout.layers, LayerFits layer) →
          ∀ p ∈ render reading widget layoutName target options, ∀ r ∈ areasOf p, OnSurface target r) := by
  intro drawn
  have hgrid : ∀ layer, OnGrid target layer (placeLayer target layer) := onGrid_placeLayer hwidth hheight
  have hkeeps : ∀ layer, ∀ r ∈ placeLayer target layer, ∀ c ∈ r.cells, ∀ p ∈ drawn c, KeepsTo c.frame p := by
    intro layer r hr c hc
    obtain ⟨hx, hy⟩ := (hgrid layer).upright hr hc
    exact keepsTo_drawn _ hx hy
  refine ⟨render_of_layout hlayout, fun layer _ => ⟨hgrid layer, hkeeps layer⟩, ?_⟩
  intro hfits p hp
  rw [render_of_layout hlayout] at hp
  rcases List.mem_append.1 hp with hhead | hcell
  · exact onSurface_surfaceLink hwidth hheight widget options.inApp p hhead
  · obtain ⟨c, hc, hp⟩ := List.mem_flatMap.1 hcell
    obtain ⟨layer, hlayer, r, hr, hc⟩ := mem_placeLayout.1 hc
    have hframe := (hgrid layer).onSurface hwidth hheight (hfits layer hlayer) hr hc
    exact onSurface_of_keepsTo hframe (hkeeps layer r hr c hc p hp)

/-- A layout that fits into the grid: of its rows one has a negative height, and of the cells of the first row one has a
negative width and one more padding than it has room for. -/
theorem grid_geometry_padded :
    let cells : List (Cell Rat) :=
      [⟨5, some 1, none, none, some ⟨none, some "http://i", some .circle⟩, none⟩, ⟨-1, some 1, none, none, none, none⟩,
        ⟨7, some 9, none, none, some ⟨some "image", none, none⟩, some "link"⟩]
    let layer : Layer Rat := ⟨some [⟨6, some cells⟩, ⟨-2, none⟩, ⟨3, some []⟩]⟩
    let layout : Layout Rat := ⟨.small, ⟨none, none⟩, [layer]⟩
    let widget : Widget Rat :=
      ⟨"http://w", ⟨"n", none, none, none,
        .ofList [("image", "http://j"), ("link", "http://l"), ("content_url", "http://c")], none, none, none,
        .ofList [("main", layout)]⟩⟩
    let target : Size Rat := ⟨120, 60⟩
    (placeLayer target layer).map (·.band) = [(15 / 2, 75 / 2), (75 / 2, 75 / 2), (75 / 2, 105 / 2)]
      ∧ OnGrid target layer (placeLayer target layer)
      ∧ (render (.rational id) widget "main" target ⟨false, .light⟩).length = 4
      ∧ ∀ p ∈ render (.rational id) widget "main" target ⟨false, .light⟩, ∀ r ∈ areasOf p, OnSurface target r := by
  intro cells layer layout widget target
  obtain ⟨-, hgrid, hinside⟩ := grid_geometry (.rational id) widget "main" layout target ⟨false, .light⟩
    (by rfl) (by norm_num) (by norm_num)
  have hfits : ∀ layer ∈ layout.layers, LayerFits layer := by decide +kernel
  exact ⟨by decide +kernel, (hgrid layer (List.mem_singleton.2 rfl)).1, by decide +kernel, hinside hfits⟩

end Surface
end HomeWidget
