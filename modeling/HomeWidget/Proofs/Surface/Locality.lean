import HomeWidget.Proofs.Surface.References
import HomeWidget.Proofs.Table

/-!
# Edits stay local

What is drawn follows the order of layers, rows and cells, each cell in a place of its own. The places of a row depend on
the widths of its cells, and the bands of a layer on the heights of its rows; offsets start anew in every row and in
every layer. So an edit of a cell that leaves its width alone moves nothing: what is drawn before the cell and what is
drawn after it stays as it was, frames included. And a layer that is put in or taken out brings or takes what it draws
itself, all of it in one piece. This holds for scalars as such, whatever sums do to them.

Main results: `placeRow_opening`, `placeLayer_opening`, `placeLayout_opening`, `kinds_drawn`, `edits_stay_local`.
-/
namespace HomeWidget

variable {α : Type}

/-! ## §1. Edits -/

/-- The widget with another layout under a name. -/
def Widget.withLayout (widget : Widget α) (name : String) (layout : Layout α) : Widget α :=
  { widget with draft := { widget.draft with layouts := widget.draft.layouts.insert name layout } }

theorem Widget.layout?_withLayout (widget : Widget α) (name : String) (layout : Layout α) :
    (widget.withLayout name layout).layout? name = some layout := by
  show (widget.draft.layouts.insert name layout).get? name = some layout
  rw [Table.get?_insert, if_pos rfl]

theorem Widget.layout?_withLayout_of_ne (widget : Widget α) {name other : String} (h : other ≠ name)
    (layout : Layout α) : (widget.withLayout other layout).layout? name = widget.layout? name := by
  show (widget.draft.layouts.insert other layout).get? name = widget.draft.layouts.get? name
  rw [Table.get?_insert, if_neg h.symm]

namespace Surface

/-- Layers with an opening for one cell: all that is around it. -/
structure Opening (α : Type) where
  layersBefore : List (Layer α)
  rowsBefore : List (Row α)
  /-- Of the row that the opening is in. -/
  height : α
  cellsBefore : List (Cell α)
  cellsAfter : List (Cell α)
  rowsAfter : List (Row α)
  layersAfter : List (Layer α)

namespace Opening

variable (o : Opening α) (cell : Cell α)

/-- The row of the opening, with a cell in it. -/
def row : Row α := ⟨o.height, some (o.cellsBefore ++ cell :: o.cellsAfter)⟩

/-- The layer of the opening, with a cell in it. -/
def layer : Layer α := ⟨some (o.rowsBefore ++ o.row cell :: o.rowsAfter)⟩

/-- The layers, with a cell in the opening. -/
def layers : List (Layer α) := o.layersBefore ++ o.layer cell :: o.layersAfter

end Opening

/-- Every cell of layers is in an opening of them. -/
theorem exists_opening {layers : List (Layer α)} {cell : Cell α} (h : cell ∈ cellsOf layers) :
    ∃ o : Opening α, o.layers cell = layers := by
  unfold cellsOf at h
  obtain ⟨layer, hlayer, h⟩ := List.mem_flatMap.1 h
  obtain ⟨row, hrow, hcell⟩ := List.mem_flatMap.1 h
  obtain ⟨layersBefore, layersAfter, rfl⟩ := List.append_of_mem hlayer
  obtain ⟨rows⟩ := layer
  cases rows with
  | none => exact absurd hrow List.not_mem_nil
  | some rows =>
    obtain ⟨rowsBefore, rowsAfter, hrows⟩ := List.append_of_mem hrow
    obtain ⟨height, cells⟩ := row
    cases cells with
    | none => exact absurd hcell List.not_mem_nil
    | some cells =>
      obtain ⟨cellsBefore, cellsAfter, hcells⟩ := List.append_of_mem hcell
      refine ⟨⟨layersBefore, rowsBefore, height, cellsBefore, cellsAfter, rowsAfter, layersAfter⟩, ?_⟩
      show layersBefore ++ ⟨some (rowsBefore ++ ⟨height, some (cellsBefore ++ cell :: cellsAfter)⟩ :: rowsAfter)⟩
        :: layersAfter = layersBefore ++ ⟨some rows⟩ :: layersAfter
      rw [← show cells = _ from hcells, ← show rows = _ from hrows]

/-! ## §2. Places -/

theorem exists_eq_append_cons {β : Type} {l : List β} {n : Nat} (h : n < l.length) :
    ∃ left x right, l = left ++ x :: right ∧ left.length = n := by
  refine ⟨l.take n, l[n], l.drop (n + 1), ?_, ?_⟩
  · rw [List.getElem_cons_drop, List.take_append_drop]
  · rw [List.length_take, Nat.min_eq_left (Nat.le_of_lt h)]

variable [Scalar α] (target : Size α) (o : Opening α)

/-- **The spans of a run depend on the lengths alone**: they stay when one of the measured things is replaced by another
one of its length. -/
theorem zip_spans_edit {β : Type} (measure : β → α) (extent units : α) (before after : List β) :
    ∃ left span right, left.length = before.length ∧ ∀ x, measure x = units →
      (before ++ x :: after).zip (spans ((before ++ x :: after).map measure) extent) = left ++ (x, span) :: right := by
  obtain ⟨run, hrun⟩ : ∃ run, run = spans (before.map measure ++ units :: after.map measure) extent := ⟨_, rfl⟩
  have hlength : before.length < run.length := by
    rw [hrun, length_spans, List.length_append, List.length_map, List.length_cons]
    omega
  obtain ⟨first, span, last, hsplit, hfirst⟩ := exists_eq_append_cons hlength
  refine ⟨before.zip first, span, after.zip last, ?_, ?_⟩
  · rw [List.length_zip, hfirst, Nat.min_self]
  · rintro x rfl
    rw [List.map_append, List.map_cons, ← hrun, hsplit, List.zip_append hfirst.symm, List.zip_cons_cons]

/-- **The places of a row stay when one of its cells is edited**, if its width stays. -/
theorem placeRow_opening (band : α × α) (width : α) :
    ∃ left frame right, ∀ cell : Cell α, cell.width = width →
      (placeRow target (o.row cell) band).cells = left ++ ⟨cell, o.cellsBefore.length, frame⟩ :: right := by
  obtain ⟨before, column, after, hlength, hzip⟩ :=
    zip_spans_edit (fun cell : Cell α => cell.width) target.width width o.cellsBefore o.cellsAfter
  let place := fun ((cell, x0, x1), index) => (⟨cell, index, ⟨x0, band.1, x1, band.2⟩⟩ : PlacedCell α)
  refine ⟨before.zipIdx.map place, ⟨column.1, band.1, column.2, band.2⟩,
    (after.zipIdx (o.cellsBefore.length + 1)).map place, ?_⟩
  intro cell hcell
  refine (congrArg (fun columns => columns.zipIdx.map place) (hzip cell hcell)).trans ?_
  rw [List.zipIdx_append, List.zipIdx_cons, List.map_append, List.map_cons, hlength, Nat.zero_add]

/-- The bands of a layer stay when one of its cells is edited. -/
theorem placeLayer_opening :
    ∃ above band below, ∀ cell : Cell α,
      placeLayer target (o.layer cell) = above ++ placeRow target (o.row cell) band :: below := by
  obtain ⟨before, band, after, -, hzip⟩ :=
    zip_spans_edit (fun row : Row α => row.height) target.height o.height o.rowsBefore o.rowsAfter
  let place := fun ((row, band) : Row α × α × α) => placeRow target row band
  refine ⟨before.map place, band, after.map place, ?_⟩
  intro cell
  -- the row keeps its height, whatever cell it holds
  refine (congrArg (·.map place) (hzip (o.row cell) rfl)).trans ?_
  rw [List.map_append, List.map_cons]

/-- **All places of a layout stay when a cell is edited**, if its width stays: those before it, its own, and those
after it. -/
theorem placeLayout_opening (layout : Layout α) (width : α) :
    ∃ before frame after, ∀ cell : Cell α, cell.width = width →
      placeLayout target { layout with layers := o.layers cell }
        = before ++ ⟨cell, o.cellsBefore.length, frame⟩ :: after := by
  obtain ⟨above, band, below, hlayer⟩ := placeLayer_opening target o
  obtain ⟨left, frame, right, hrow⟩ := placeRow_opening target o band width
  let placed := fun layer => (placeLayer target layer).flatMap (·.cells)
  refine ⟨o.layersBefore.flatMap placed ++ (above.flatMap (·.cells) ++ left), frame,
    right ++ below.flatMap (·.cells) ++ o.layersAfter.flatMap placed, ?_⟩
  intro cell hcell
  have hplaced : placed (o.layer cell)
      = above.flatMap (·.cells) ++ (left ++ ⟨cell, o.cellsBefore.length, frame⟩ :: right ++ below.flatMap (·.cells)) := by
    show (placeLayer target (o.layer cell)).flatMap (·.cells) = _
    rw [hlayer, List.flatMap_append, List.flatMap_cons, hrow cell hcell]
  show (o.layersBefore ++ o.layer cell :: o.layersAfter).flatMap placed = _
  rw [List.flatMap_append, List.flatMap_cons, hplaced]
  simp only [List.append_assoc, List.cons_append]

/-! ## §3. What one cell shows -/

/-- The four kinds of primitives. -/
inductive Kind where
  | fill
  | image
  | text
  | hitRegion
  deriving DecidableEq, Repr

/-- What kind a primitive is of. -/
def kindOf : Primitive α → Kind
  | .fill _ _ _ => .fill
  | .image _ => .image
  | .text _ => .text
  | .hitRegion _ _ => .hitRegion

omit [Scalar α] in
theorem kinds_toList {shown : Option (Primitive α)} {kind : Kind} (h : ∀ p ∈ shown, kindOf p = kind) :
    (shown.toList.map kindOf).Sublist [kind] := by
  cases shown with
  | none => exact List.nil_sublist _
  | some p =>
    rw [← h p rfl]
    exact List.Sublist.refl _

/-- **A cell shows at most one primitive of each kind**: a background, an image, a text and a link, in this order. -/
theorem kinds_drawn (ctx : Context α) (c : PlacedCell α) :
    ((c.drawn ctx).map kindOf).Sublist [.fill, .image, .text, .hitRegion] := by
  have hfill : ((cellFill ctx c.cell c.frame).map kindOf).Sublist [.fill] := by
    apply kinds_toList
    intro p hp
    obtain ⟨paint, -, rfl⟩ := Option.map_eq_some_iff.1 hp
    rfl
  have himage : ((cellImage ctx c.cell c.frame (c.content ctx)).map kindOf).Sublist [.image] := by
    apply kinds_toList
    intro p hp
    obtain ⟨image, -, hp⟩ := Option.bind_eq_some_iff.1 hp
    obtain ⟨source, -, hp⟩ := Option.bind_eq_some_iff.1 hp
    rw [← Option.some.inj hp]
    rfl
  have htext : ((cellText ctx c.cell c.frame (c.content ctx)).map kindOf).Sublist [.text] := by
    apply kinds_toList
    intro p hp
    obtain ⟨node, -, hp⟩ := Option.bind_eq_some_iff.1 hp
    obtain ⟨text, -, hp⟩ := Option.bind_eq_some_iff.1 hp
    split at hp
    next => cases hp
    next =>
      rw [← Option.some.inj hp]
      rfl
  have hlink : ((cellLink ctx c.cell c.index c.frame).map kindOf).Sublist [.hitRegion] := by
    unfold cellLink
    split
    next => exact List.nil_sublist _
    next =>
      apply kinds_toList
      intro p hp
      obtain ⟨url, -, rfl⟩ := Option.map_eq_some_iff.1 hp
      rfl
  show ((cellFill ctx c.cell c.frame ++ cellImage ctx c.cell c.frame (c.content ctx)
    ++ cellText ctx c.cell c.frame (c.content ctx) ++ cellLink ctx c.cell c.index c.frame).map kindOf).Sublist _
  rw [List.map_append, List.map_append, List.map_append]
  exact ((hfill.append himage).append htext).append hlink

/-! ## §4. The whole surface -/

section

variable (reading : Reading α) (widget : Widget α) (layoutName : String) (layout : Layout α) (options : Options)

/-- **A surface is drawn layer by layer**, after the area behind it. -/
theorem render_withLayers (layers : List (Layer α)) :
    render reading (widget.withLayout layoutName { layout with layers }) layoutName target options
      = surfaceLink widget target options.inApp
        ++ layers.flatMap (drawLayer (contextOf reading widget layout target options.inApp)) := by
  unfold render
  rw [widget.layout?_withLayout, List.flatMap_def]
  rfl

/-- With another layout under another name the surface is the same. -/
theorem render_withLayout_of_ne {other : String} (h : other ≠ layoutName) :
    render reading (widget.withLayout other layout) layoutName target options
      = render reading widget layoutName target options := by
  unfold render
  rw [widget.layout?_withLayout_of_ne h]
  rfl

/-- **An edited cell stays in its place**, and what is drawn before it and after it stays as it was. -/
theorem render_opening (width : α) :
    ∃ before frame after, ∀ cell : Cell α, cell.width = width →
      render reading (widget.withLayout layoutName { layout with layers := o.layers cell }) layoutName target options
        = before ++ (⟨cell, o.cellsBefore.length, frame⟩ : PlacedCell α).drawn
            (contextOf reading widget layout target options.inApp) ++ after := by
  obtain ⟨before, frame, after, hplaces⟩ := placeLayout_opening target o layout width
  let drawn := fun c : PlacedCell α => c.drawn (contextOf reading widget layout target options.inApp)
  refine ⟨surfaceLink widget target options.inApp ++ before.flatMap drawn, frame, after.flatMap drawn, ?_⟩
  intro cell hcell
  rw [render_of_layout (widget.layout?_withLayout layoutName _), hplaces cell hcell, List.flatMap_append,
    List.flatMap_cons, ← List.append_assoc, ← List.append_assoc]
  rfl

/-- **Edits stay local.** Let a widget have a layout under the name that is drawn. With other layers in this layout
* everything is drawn in the order of the layers, after the area behind the surface; in a layer in the order of its rows,
  in a row in the order of its cells;
* every cell of the layout is in an opening of its layers, and whatever cell of a width is put in an opening, what is
  drawn before it and after it is the same, frames included, and in between are the primitives of the cell itself, in a
  frame that is the same too;
* these are at most one background, one image, one text and one link, in this order;
* a layer that is put in anywhere adds what it draws, in one piece, and one that is taken out takes just that along.

A layout under another name can be replaced without any effect. -/
theorem edits_stay_local (hlayout : widget.layout? layoutName = some layout) :
    let ctx := contextOf reading widget layout target options.inApp
    let surface := fun layers =>
      render reading (widget.withLayout layoutName { layout with layers }) layoutName target options
    surface layout.layers = render reading widget layoutName target options
      ∧ (∀ layers, surface layers = surfaceLink widget target options.inApp ++ layers.flatMap (drawLayer ctx))
      ∧ (∀ layer, Arranges layer (placeLayer target layer)
          ∧ drawLayer ctx layer = (placeLayer target layer).flatMap fun r => r.cells.flatMap (·.drawn ctx))
      ∧ (∀ cell ∈ cellsOf layout.layers, ∃ o : Opening α, o.layers cell = layout.layers)
      ∧ (∀ (o : Opening α) (width : α), ∃ before frame after, ∀ cell : Cell α, cell.width = width →
          surface (o.layers cell)
            = before ++ (⟨cell, o.cellsBefore.length, frame⟩ : PlacedCell α).drawn ctx ++ after)
      ∧ (∀ c : PlacedCell α, ((c.drawn ctx).map kindOf).Sublist [.fill, .image, .text, .hitRegion])
      ∧ (∀ before after, ∃ first last, surface (before ++ after) = first ++ last
          ∧ ∀ layer, surface (before ++ layer :: after) = first ++ drawLayer ctx layer ++ last)
      ∧ ∀ other ≠ layoutName, ∀ layout', render reading (widget.withLayout other layout') layoutName target options
          = render reading widget layoutName target options := by
  intro ctx surface
  have hsurface : ∀ layers, surface layers = surfaceLink widget target options.inApp ++ layers.flatMap (drawLayer ctx) :=
    render_withLayers target reading widget layoutName layout options
  refine ⟨?_, hsurface, fun layer => ⟨arranges_placeLayer target layer, drawLayer_eq ctx layer⟩,
    fun cell hcell => exists_opening hcell, fun o => render_opening target o reading widget layoutName layout options,
    kinds_drawn ctx, ?_, ?_⟩
  · rw [hsurface, List.flatMap_def]
    unfold render
    rw [hlayout]
    rfl
  · intro before after
    refine ⟨surfaceLink widget target options.inApp ++ before.flatMap (drawLayer ctx), after.flatMap (drawLayer ctx),
      ?_, ?_⟩
    · rw [hsurface, List.flatMap_append, List.append_assoc]
    · intro layer
      rw [hsurface, List.flatMap_append, List.flatMap_cons, List.append_assoc, List.append_assoc]
  · intro other hother layout'
    exact render_withLayout_of_ne target reading widget layoutName layout' options hother

end

/-- The middle one of three cells loses its background and gets an image, a text and so much padding that nothing of it
is left; what the other cells and the second layer show stays where it was. -/
theorem edits_stay_local_middle :
    let greeting : TextNode Rat := ⟨some "Hi", none, none, none, none, none, none, none⟩
    let side : Cell Rat := ⟨3, none, some "tint", some greeting, none, none⟩
    let plain : Cell Rat := ⟨-1, some 1, some "tint", none, none, some "link"⟩
    let dressed : Cell Rat := ⟨-1, some 9, none, some greeting, some ⟨none, some "http://i", none⟩, some "link"⟩
    let o : Opening Rat := ⟨[], [⟨2, some [side]⟩], 5, [side], [side], [⟨-4, none⟩], [⟨some [⟨12, some [side]⟩]⟩]⟩
    let layout : Layout Rat := ⟨.small, ⟨some (.ofList [("tint", ⟨none, "#112233"⟩)]), none⟩, o.layers plain⟩
    let widget : Widget Rat :=
      ⟨"http://w", ⟨"n", none, none, none, .ofList [("link", "http://l"), ("content_url", "http://c")], none, none, none,
        .ofList [("other", ⟨.large, ⟨none, none⟩, []⟩), ("main", layout)]⟩⟩
    let edited := widget.withLayout "main" { layout with layers := o.layers dressed }
    let ctx := contextOf (.rational id) widget layout ⟨120, 60⟩ false
    (∃ before frame after,
        render (.rational id) widget "main" ⟨120, 60⟩ ⟨false, .light⟩
            = before ++ (⟨plain, 1, frame⟩ : PlacedCell Rat).drawn ctx ++ after
          ∧ render (.rational id) edited "main" ⟨120, 60⟩ ⟨false, .light⟩
            = before ++ (⟨dressed, 1, frame⟩ : PlacedCell Rat).drawn ctx ++ after)
      ∧ (render (.rational id) widget "main" ⟨120, 60⟩ ⟨false, .light⟩).map kindOf
        = [.hitRegion, .fill, .text, .fill, .text, .fill, .hitRegion, .fill, .text, .fill, .text]
      ∧ (render (.rational id) edited "main" ⟨120, 60⟩ ⟨false, .light⟩).map kindOf
        = [.hitRegion, .fill, .text, .fill, .text, .image, .text, .hitRegion, .fill, .text, .fill, .text] := by
  intro greeting side plain dressed o layout widget edited ctx
  obtain ⟨hsame, -, -, -, hcell, -⟩ :=
    edits_stay_local ⟨120, 60⟩ (.rational id) widget "main" layout ⟨false, .light⟩ (by rfl)
  refine ⟨?_, by decide +kernel, by decide +kernel⟩
  obtain ⟨before, frame, after, hrender⟩ := hcell o (-1)
  exact ⟨before, frame, after, hsame.symm.trans (hrender plain rfl), hrender dressed rfl⟩

end Surface
end HomeWidget
