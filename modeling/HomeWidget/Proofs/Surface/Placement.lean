import HomeWidget.Surface.Layout

/-!
# Cells in their places

A layout puts every cell of its rows somewhere: at an index of its row, in a frame of the surface. Which place a cell
gets depends on the layout and the surface alone, not on what the cells show. A surface is then drawn cell by cell, in
the order of layers, rows and cells, each cell by itself in its place.

Main results: `arranges_placeLayer`, `drawn_cases`, `render_of_layout`, `render_of_missing`.
-/
namespace HomeWidget.Surface

variable {α : Type} [Scalar α]

/-- A cell, its index in its row, and its frame. -/
structure PlacedCell (α : Type) where
  cell : Cell α
  index : Nat
  frame : Rect α

/-- A row, its band from top to bottom, and its cells from left to right. -/
structure PlacedRow (α : Type) where
  row : Row α
  band : α × α
  cells : List (PlacedCell α)

/-- The cells of a row in the frames that a band leaves them. -/
def placeRow (target : Size α) (row : Row α) (band : α × α) : PlacedRow α :=
  let cells := row.cells.getD []
  let columns := spans (cells.map (·.width)) target.width
  ⟨row, band, (cells.zip columns).zipIdx.map fun ((cell, x0, x1), index) =>
    ⟨cell, index, ⟨x0, band.1, x1, band.2⟩⟩⟩

/-- The rows of a layer in their bands. -/
def placeLayer (target : Size α) (layer : Layer α) : List (PlacedRow α) :=
  let rows := layer.rows.getD []
  let bands := spans (rows.map (·.height)) target.height
  (rows.zip bands).map fun (row, band) => placeRow target row band

/-- The cells of a layout, in the order in which they are drawn. -/
def placeLayout (target : Size α) (layout : Layout α) : List (PlacedCell α) :=
  layout.layers.flatMap fun layer => (placeLayer target layer).flatMap (·.cells)

/-! ## §1. What is placed -/

@[simp]
theorem length_spansFrom (start extent : α) (lengths : List α) :
    (spansFrom start extent lengths).length = lengths.length := by
  induction lengths generalizing start with
  | nil => rfl
  | cons units rest ih =>
    unfold spansFrom
    rw [List.length_cons, List.length_cons, ih]

@[simp]
theorem length_spans (lengths : List α) (extent : α) : (spans lengths extent).length = lengths.length :=
  length_spansFrom _ _ _

/-- The placed rows are the rows of a layer in their order, and each holds its cells in their order, every one with its
index. -/
structure Arranges (layer : Layer α) (placed : List (PlacedRow α)) : Prop where
  rows : placed.map (·.row) = layer.rows.getD []
  cells : ∀ r ∈ placed, r.cells.map (fun c => (c.cell, c.index)) = (r.row.cells.getD []).zipIdx

/-- A row places its cells in their order, each with its index. -/
theorem cells_placeRow (target : Size α) (row : Row α) (band : α × α) :
    (placeRow target row band).cells.map (fun c => (c.cell, c.index)) = (row.cells.getD []).zipIdx := by
  unfold placeRow
  dsimp only
  generalize hcells : row.cells.getD [] = cells
  -- pairing the cells with their columns leaves them as they are
  have hfirst : (cells.zip (spans (cells.map (·.width)) target.width)).map Prod.fst = cells :=
    List.map_fst_zip (Nat.le_of_eq (by rw [length_spans, List.length_map]))
  rw [List.map_map]
  calc _ = (cells.zip (spans (cells.map (·.width)) target.width)).zipIdx.map (Prod.map Prod.fst id) := rfl
    _ = cells.zipIdx := by rw [← List.zipIdx_map, hfirst]

/-- The cells of a row are in the columns of their widths. -/
theorem columns_placeRow (target : Size α) (row : Row α) (band : α × α) :
    (placeRow target row band).cells.map (fun c => (c.frame.x0, c.frame.x1))
      = spans ((row.cells.getD []).map (·.width)) target.width := by
  unfold placeRow
  dsimp only
  generalize row.cells.getD [] = cells
  have hsecond : (cells.zip (spans (cells.map (·.width)) target.width)).map Prod.snd
      = spans (cells.map (·.width)) target.width :=
    List.map_snd_zip (Nat.le_of_eq (by rw [length_spans, List.length_map]))
  rw [List.map_map]
  calc _ = ((cells.zip (spans (cells.map (·.width)) target.width)).zipIdx.map Prod.fst).map Prod.snd := by
        rw [List.map_map]
        rfl
    _ = spans (cells.map (·.width)) target.width := by rw [List.zipIdx_map_fst, hsecond]

/-- The cells of a row share its band. -/
theorem band_of_mem_placeRow {target : Size α} {row : Row α} {band : α × α} {c : PlacedCell α}
    (h : c ∈ (placeRow target row band).cells) : (c.frame.y0, c.frame.y1) = band := by
  obtain ⟨placed, -, rfl⟩ := List.mem_map.1 h
  rfl

/-- The rows of a layer are in the bands of their heights. -/
theorem bands_placeLayer (target : Size α) (layer : Layer α) :
    (placeLayer target layer).map (·.band) = spans ((layer.rows.getD []).map (·.height)) target.height := by
  unfold placeLayer
  rw [List.map_map]
  exact List.map_snd_zip (Nat.le_of_eq (by rw [length_spans, List.length_map]))

/-- **Every row and every cell has a place**, in order. -/
theorem arranges_placeLayer (target : Size α) (layer : Layer α) : Arranges layer (placeLayer target layer) where
  rows := by
    unfold placeLayer
    rw [List.map_map]
    exact List.map_fst_zip (Nat.le_of_eq (by rw [length_spans, List.length_map]))
  cells := by
    intro r hr
    obtain ⟨⟨row, band⟩, -, rfl⟩ := List.mem_map.1 hr
    exact cells_placeRow target row band

theorem mem_placeLayout {target : Size α} {layout : Layout α} {c : PlacedCell α} :
    c ∈ placeLayout target layout ↔ ∃ layer ∈ layout.layers, ∃ r ∈ placeLayer target layer, c ∈ r.cells := by
  unfold placeLayout
  simp only [List.mem_flatMap]

/-! ## §2. What is drawn -/

/-- What a cell shows in its place. -/
def PlacedCell.drawn (ctx : Context α) (c : PlacedCell α) : List (Primitive α) := drawCell ctx c.index c.cell c.frame

/-- The part of its frame that padding leaves to a cell. -/
def PlacedCell.content (ctx : Context α) (c : PlacedCell α) : Rect α :=
  c.frame.inset (gridToPixels (c.cell.padding.getD 0.0) ctx.target.width)

/-- **All that a cell can show**: its background, its image and its text, as far as its references lead somewhere, and
outside a preview the area that opens its link. -/
theorem drawn_cases {ctx : Context α} {c : PlacedCell α} {p : Primitive α} (h : p ∈ c.drawn ctx) :
    (∃ paint, ctx.paint? c.cell.backgroundColorStyle = some paint ∧ p = .fill c.frame paint 0.0)
      ∨ (∃ image source, c.cell.image = some image ∧ image.resolve? ctx.data = some source
          ∧ p = .image ⟨c.content ctx, c.frame, source, ImageMask.ofMask image.mask⟩)
      ∨ (∃ node text, c.cell.text = some node ∧ node.resolve? ctx.data = some text ∧ ¬text.isEmpty = true
          ∧ p = .text (textRun ctx node text c.frame (c.content ctx)))
      ∨ ∃ url, ¬ctx.inApp = true ∧ c.cell.linkUrl? ctx.data = some url
          ∧ p = .hitRegion c.frame (.cell url ctx.id (some c.index)) := by
  unfold PlacedCell.drawn drawCell at h
  rcases List.mem_append.1 h with h | hlink
  · rcases List.mem_append.1 h with h | htext
    · rcases List.mem_append.1 h with hfill | himage
      · obtain ⟨paint, hpaint, hp⟩ := Option.map_eq_some_iff.1 (Option.mem_toList.1 hfill)
        exact Or.inl ⟨paint, hpaint, hp.symm⟩
      · obtain ⟨image, hcell, hp⟩ := Option.bind_eq_some_iff.1 (Option.mem_toList.1 himage)
        obtain ⟨source, hsource, hp⟩ := Option.bind_eq_some_iff.1 hp
        exact Or.inr (Or.inl ⟨image, source, hcell, hsource, (Option.some.inj hp).symm⟩)
    · obtain ⟨node, hcell, hp⟩ := Option.bind_eq_some_iff.1 (Option.mem_toList.1 htext)
      obtain ⟨text, hresolve, hp⟩ := Option.bind_eq_some_iff.1 hp
      split at hp
      next => cases hp
      next hfull => exact Or.inr (Or.inr (Or.inl ⟨node, text, hcell, hresolve, hfull, (Option.some.inj hp).symm⟩))
  · unfold cellLink at hlink
    split at hlink
    next => cases hlink
    next hlive =>
      obtain ⟨url, hurl, hp⟩ := Option.map_eq_some_iff.1 (Option.mem_toList.1 hlink)
      exact Or.inr (Or.inr (Or.inr ⟨url, hlive, hurl, hp.symm⟩))

theorem drawRow_eq (ctx : Context α) (row : Row α) (band : α × α) :
    drawRow ctx row band = (placeRow ctx.target row band).cells.flatMap (·.drawn ctx) := by
  unfold drawRow placeRow
  dsimp only
  rw [List.flatMap_map, List.flatMap_def]
  rfl

theorem drawLayer_eq (ctx : Context α) (layer : Layer α) :
    drawLayer ctx layer = (placeLayer ctx.target layer).flatMap fun r => r.cells.flatMap (·.drawn ctx) := by
  unfold drawLayer placeLayer
  dsimp only
  rw [List.flatMap_map, List.flatMap_def]
  simp only [drawRow_eq]

/-- What the cells of a layout of a widget are drawn with. -/
def contextOf (reading : Reading α) (widget : Widget α) (layout : Layout α) (target : Size α) (inApp : Bool) :
    Context α :=
  { reading, id := widget.id, data := widget.draft.data, styles := layout.styles, target, inApp }

section

variable {reading : Reading α} {widget : Widget α} {layoutName : String} {target : Size α} {options : Options}

/-- **A surface is drawn cell by cell**, after the area behind it. -/
theorem render_of_layout {layout : Layout α} (h : widget.layout? layoutName = some layout) :
    render reading widget layoutName target options
      = surfaceLink widget target options.inApp
        ++ (placeLayout target layout).flatMap (·.drawn (contextOf reading widget layout target options.inApp)) := by
  unfold render placeLayout
  rw [h]
  simp only [List.flatMap_assoc]
  show _ ++ (layout.layers.map (drawLayer (contextOf reading widget layout target options.inApp))).flatten = _
  rw [← List.flatMap_def, funext (drawLayer_eq _)]
  rfl

/-- Without its layout a widget is painted as an unknown one, with the link of the surface below. -/
theorem render_of_missing (h : widget.layout? layoutName = none) :
    render reading widget layoutName target options
      = surfaceLink widget target options.inApp ++ unknownLayout target options.appearance := by
  unfold render
  rw [h]

end
end HomeWidget.Surface
