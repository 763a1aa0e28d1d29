import HomeWidget.Proofs.Surface.Placement
import Mathlib.Data.List.Basic

/-!
# What a surface depends on

Of a widget a surface shows no more than its layout refers to: the data values that texts and images name, unless they
are given themselves, the addresses that cells and the surface open, unless it is a preview, the colours of cells and
texts, and the families of fonts. Two widgets with the same identity whose layouts have the same layers look the same
as soon as they agree on these. Nothing else of a widget is ever looked at.

Main results: `resolve?_congr`, `drawn_congr`, `mem_cellsOf`, `render_eq_of_agree`.
-/
namespace HomeWidget

variable {α : Type}

/-! ## §1. References -/

/-- The name of the data value that a text shows; none if the text is given itself. -/
def TextNode.reference? (t : TextNode α) : Option String := if t.string.isSome then none else t.dataRef

/-- The name of the data value that leads to an image; none if its address is given itself. -/
def ImageNode.reference? (i : ImageNode) : Option String := if i.url.isSome then none else i.dataRef

namespace Cell

/-- The names of the data values that a cell shows, and opens unless it is in a preview. -/
def dataReferences (inApp : Bool) (c : Cell α) : List String :=
  (c.text.bind TextNode.reference?).toList ++ (c.image.bind ImageNode.reference?).toList
    ++ if inApp then [] else c.linkUrlDataRef.toList

/-- The names of the colours of a cell and of its text. -/
def colorReferences (c : Cell α) : List String :=
  c.backgroundColorStyle.toList ++ (c.text.bind (·.colorStyle)).toList

/-- The name of the font of its text. -/
def fontReferences (c : Cell α) : List String := (c.text.bind (·.fontStyle)).toList

end Cell

/-- The cells of layers, in the order in which they are drawn. -/
def cellsOf (layers : List (Layer α)) : List (Cell α) :=
  layers.flatMap fun layer => (layer.rows.getD []).flatMap fun row => row.cells.getD []

/-! ## §2. Values -/

section

variable {data data' : Table String}

theorem dataValue?_congr {ref : Option String} (h : ∀ key ∈ ref.toList, data.get? key = data'.get? key) :
    dataValue? data ref = dataValue? data' ref := by
  cases ref with
  | none => rfl
  | some key => exact h key (List.mem_singleton.2 rfl)

/-- A text looks up no more than its reference. -/
theorem TextNode.resolve?_congr {t : TextNode α} (h : ∀ key ∈ t.reference?.toList, data.get? key = data'.get? key) :
    t.resolve? data = t.resolve? data' := by
  unfold reference? at h
  unfold resolve?
  cases hstring : t.string with
  | some text => rfl
  | none =>
    rw [hstring] at h
    exact congrArg (none <|> ·) (dataValue?_congr h)

theorem ImageNode.resolve?_congr {i : ImageNode} (h : ∀ key ∈ i.reference?.toList, data.get? key = data'.get? key) :
    i.resolve? data = i.resolve? data' := by
  unfold reference? at h
  unfold resolve?
  cases hurl : i.url with
  | some url => rfl
  | none =>
    rw [hurl] at h
    exact congrArg (none <|> ·) (dataValue?_congr h)

end

namespace Surface

/-! ## §3. Cells -/

/-- The context with other data and other styles. -/
def Context.swap (ctx : Context α) (data : Table String) (styles : Styles) : Context α := { ctx with data, styles }

section

variable {ctx : Context α} {data : Table String} {styles : Styles} {cell : Cell α} (frame content : Rect α)

/-- In the styles a text looks up no more than its font and its colour. -/
theorem font_congr {style : Option String}
    (h : ∀ name ∈ style.toList, ctx.styles.fontFamily? name = styles.fontFamily? name) :
    (ctx.swap data styles).font style = ctx.font style := by
  cases style with
  | none => rfl
  | some name =>
    show ((styles.fontFamily? name).map FontFamily.named).getD .system
      = ((ctx.styles.fontFamily? name).map FontFamily.named).getD .system
    rw [h name (List.mem_singleton.2 rfl)]

theorem cellImage_congr
    (h : ∀ key ∈ (cell.image.bind ImageNode.reference?).toList, ctx.data.get? key = data.get? key) :
    cellImage (ctx.swap data styles) cell frame content = cellImage ctx cell frame content := by
  unfold cellImage
  cases hcell : cell.image with
  | none => rfl
  | some image =>
    rw [hcell] at h
    have hresolve : image.resolve? ctx.data = image.resolve? data := ImageNode.resolve?_congr h
    show ((image.resolve? data).bind _).toList = ((image.resolve? ctx.data).bind _).toList
    rw [hresolve]

/-- A link looks up its reference, and not even that within the application. -/
theorem cellLink_congr (index : Nat)
    (h : ∀ key ∈ (if ctx.inApp then [] else cell.linkUrlDataRef.toList), ctx.data.get? key = data.get? key) :
    cellLink (ctx.swap data styles) cell index frame = cellLink ctx cell index frame := by
  unfold cellLink
  show (if ctx.inApp then [] else ((cell.linkUrl? data).map _).toList) = _
  by_cases hpreview : ctx.inApp = true
  · rw [if_pos hpreview, if_pos hpreview]
  · rw [if_neg hpreview] at h
    have hlink : cell.linkUrl? ctx.data = cell.linkUrl? data := dataValue?_congr h
    rw [if_neg hpreview, if_neg hpreview, hlink]
    rfl

variable [Scalar α]

theorem paint?_congr {style : Option String}
    (h : ∀ name ∈ style.toList, ctx.styles.color? name = styles.color? name) :
    (ctx.swap data styles).paint? style = ctx.paint? style := by
  cases style with
  | none => rfl
  | some name =>
    show (styles.color? name).map _ = (ctx.styles.color? name).map _
    rw [h name (List.mem_singleton.2 rfl)]
    rfl

theorem cellFill_congr (h : ∀ name ∈ cell.backgroundColorStyle.toList, ctx.styles.color? name = styles.color? name) :
    cellFill (ctx.swap data styles) cell frame = cellFill ctx cell frame := by
  unfold cellFill
  rw [paint?_congr h]

/-- So the text of a cell depends on these lookups only. -/
theorem cellText_congr (hdata : ∀ key ∈ (cell.text.bind TextNode.reference?).toList, ctx.data.get? key = data.get? key)
    (hcolors : ∀ name ∈ (cell.text.bind (·.colorStyle)).toList, ctx.styles.color? name = styles.color? name)
    (hfonts : ∀ name ∈ cell.fontReferences, ctx.styles.fontFamily? name = styles.fontFamily? name) :
    cellText (ctx.swap data styles) cell frame content = cellText ctx cell frame content := by
  unfold Cell.fontReferences at hfonts
  unfold cellText
  cases hcell : cell.text with
  | none => rfl
  | some node =>
    rw [hcell] at hdata hcolors hfonts
    have hresolve : node.resolve? ctx.data = node.resolve? data := TextNode.resolve?_congr hdata
    have hpaint : (ctx.swap data styles).paint? node.colorStyle = ctx.paint? node.colorStyle := paint?_congr hcolors
    have hfont : (ctx.swap data styles).font node.fontStyle = ctx.font node.fontStyle := font_congr hfonts
    have hrun (text : String) :
        textRun (ctx.swap data styles) node text frame content = textRun ctx node text frame content := by
      unfold textRun
      rw [hpaint, hfont]
    show ((node.resolve? data).bind fun text => if text.isEmpty then none else
        some (Primitive.text (textRun (ctx.swap data styles) node text frame content))).toList
      = ((node.resolve? ctx.data).bind _).toList
    rw [hresolve]
    simp only [hrun]
    rfl

end

variable [Scalar α]

/-- **What a cell shows depends on its references alone.** -/
theorem drawn_congr {ctx : Context α} {data : Table String} {styles : Styles} {c : PlacedCell α}
    (hdata : ∀ key ∈ c.cell.dataReferences ctx.inApp, ctx.data.get? key = data.get? key)
    (hcolors : ∀ name ∈ c.cell.colorReferences, ctx.styles.color? name = styles.color? name)
    (hfonts : ∀ name ∈ c.cell.fontReferences, ctx.styles.fontFamily? name = styles.fontFamily? name) :
    c.drawn (ctx.swap data styles) = c.drawn ctx := by
  unfold Cell.dataReferences at hdata
  unfold Cell.colorReferences at hcolors
  simp only [List.forall_mem_append] at hdata hcolors
  obtain ⟨⟨htext, himage⟩, hlink⟩ := hdata
  obtain ⟨hfill, htextColor⟩ := hcolors
  unfold PlacedCell.drawn drawCell
  dsimp only
  rw [cellFill_congr _ hfill, cellImage_congr _ _ himage, cellText_congr _ _ htext htextColor hfonts,
    cellLink_congr _ _ hlink]
  rfl

/-! ## §4. The whole surface -/

/-- A cell that is placed is one of the cells of the layers. -/
theorem mem_cellsOf {target : Size α} {layout : Layout α} {c : PlacedCell α} (h : c ∈ placeLayout target layout) :
    c.cell ∈ cellsOf layout.layers := by
  obtain ⟨layer, hlayer, r, hr, hc⟩ := mem_placeLayout.1 h
  obtain ⟨hrows, hcells⟩ := arranges_placeLayer target layer
  have hrow : r.row ∈ layer.rows.getD [] := by
    rw [← hrows]
    exact List.mem_map_of_mem hr
  have hcell : (c.cell, c.index) ∈ (r.row.cells.getD []).zipIdx := by
    rw [← hcells r hr]
    exact List.mem_map_of_mem hc
  unfold cellsOf
  exact List.mem_flatMap.2 ⟨layer, hlayer, List.mem_flatMap.2 ⟨r.row, hrow, List.fst_mem_of_mem_zipIdx hcell⟩⟩

/-- Two widgets, the one with the one styles and the other with the others, agree on all that layers refer to. -/
structure AgreeOnReferences (inApp : Bool) (layers : List (Layer α)) (widget widget' : Widget α)
    (styles styles' : Styles) : Prop where
  /-- The address behind the surface counts outside a preview only. -/
  surface : inApp = false → widget.dataValue? Widget.contentUrlKey = widget'.dataValue? Widget.contentUrlKey
  data : ∀ cell ∈ cellsOf layers, ∀ key ∈ cell.dataReferences inApp, widget.dataValue? key = widget'.dataValue? key
  colors : ∀ cell ∈ cellsOf layers, ∀ name ∈ cell.colorReferences, styles.color? name = styles'.color? name
  fonts : ∀ cell ∈ cellsOf layers, ∀ name ∈ cell.fontReferences, styles.fontFamily? name = styles'.fontFamily? name

/-- **A surface depends on nothing but what its layout refers to.** Two widgets of the same identity, with layouts of the
same layers under the name that is drawn, look the same on every target if they agree on the references of these layers:
* outside a preview, on the address behind the surface and on the links of cells,
* on the data values of texts and images that are not given themselves,
* on the colours of cells and texts, and on the families of fonts.
In nothing else need they have anything in common. -/
theorem render_eq_of_agree {widget widget' : Widget α} {layoutName : String} {layout layout' : Layout α} {inApp : Bool}
    (hid : widget.id = widget'.id) (hlayout : widget.layout? layoutName = some layout)
    (hlayout' : widget'.layout? layoutName = some layout') (hlayers : layout.layers = layout'.layers)
    (hagree : AgreeOnReferences inApp layout.layers widget widget' layout.styles layout'.styles) (reading : Reading α)
    (target : Size α) (appearance : Appearance) :
    render reading widget layoutName target ⟨inApp, appearance⟩
      = render reading widget' layoutName target ⟨inApp, appearance⟩ := by
  have hsurface : surfaceLink widget target inApp = surfaceLink widget' target inApp := by
    unfold surfaceLink
    cases inApp with
    | true => rfl
    | false =>
      have hurl : widget.contentUrl? = widget'.contentUrl? := hagree.surface rfl
      rw [hurl, hid]
  have hplaces : placeLayout target layout = placeLayout target layout' := by
    unfold placeLayout
    rw [hlayers]
  have hcontext : contextOf reading widget' layout' target inApp
      = (contextOf reading widget layout target inApp).swap widget'.draft.data layout'.styles := by
    unfold contextOf Context.swap
    rw [hid]
  rw [render_of_layout hlayout, render_of_layout hlayout', hsurface, ← hplaces, hcontext]
  refine congrArg (surfaceLink widget' target inApp ++ ·) ?_
  apply List.flatMap_congr
  intro c hc
  have hcell := mem_cellsOf hc
  exact (drawn_congr (hagree.data _ hcell) (hagree.colors _ hcell) (hagree.fonts _ hcell)).symm

/-- Two widgets that look the same in a preview and not otherwise. They agree on a headline, on two colours and on a
family; a text and an image that are given themselves also name data values, on which they do not agree, and neither do
they on the link of a cell, nor on anything else. -/
theorem render_eq_of_agree_preview :
    let greeting : TextNode Rat := ⟨some "Hi", some "greeting", some "ink", some "face", none, none, none, none⟩
    let headline : TextNode Rat := ⟨none, some "headline", none, none, none, none, none, none⟩
    let picture : ImageNode := ⟨some "picture", some "http://i", none⟩
    let cells : List (Cell Rat) :=
      [⟨6, some 1, some "tint", some greeting, none, some "link"⟩, ⟨6, none, none, some headline, some picture, none⟩]
    let layers : List (Layer Rat) := [⟨some [⟨12, some cells⟩]⟩]
    let styles : Styles :=
      ⟨some (.ofList [("ink", ⟨none, "#ffffff"⟩), ("tint", ⟨none, "#112233"⟩)]),
        some (.ofList [("face", ⟨none, some "Georgia"⟩)])⟩
    let styles' : Styles :=
      ⟨some (.ofList [("tint", ⟨some "Tint", "#112233"⟩), ("ink", ⟨none, "#ffffff"⟩), ("other", ⟨none, "#000000"⟩)]),
        some (.ofList [("face", ⟨some "Face", some "Georgia"⟩)])⟩
    let widget : Widget Rat :=
      ⟨"http://w", ⟨"one", none, none, none,
        .ofList [("headline", "News"), ("greeting", "a"), ("link", "http://a"), ("content_url", "http://c")], none, none,
        none, .ofList [("main", ⟨.small, styles, layers⟩)]⟩⟩
    let widget' : Widget Rat :=
      ⟨"http://w", ⟨"two", some "other", none, some 2, .ofList [("link", "http://b"), ("headline", "News")], some "main",
        none, some ["main"], .ofList [("more", ⟨.large, styles, []⟩), ("main", ⟨.large, styles', layers⟩)]⟩⟩
    render (.rational id) widget "main" ⟨120, 60⟩ ⟨true, .light⟩
        = render (.rational id) widget' "main" ⟨120, 60⟩ ⟨true, .light⟩
      ∧ (render (.rational id) widget "main" ⟨120, 60⟩ ⟨true, .light⟩).length = 4
      ∧ render (.rational id) widget "main" ⟨120, 60⟩ ⟨false, .light⟩
        ≠ render (.rational id) widget' "main" ⟨120, 60⟩ ⟨false, .light⟩ := by
  intro greeting headline picture cells layers styles styles' widget widget'
  have hagree : AgreeOnReferences true layers widget widget' styles styles' :=
    { surface := nofun
      data := by decide +kernel
      colors := by decide +kernel
      fonts := by decide +kernel }
  have hid : widget.id = widget'.id := rfl
  have hlayout : widget.layout? "main" = some ⟨.small, styles, layers⟩ := rfl
  have hlayout' : widget'.layout? "main" = some ⟨.large, styles', layers⟩ := rfl
  exact ⟨render_eq_of_agree hid hlayout hlayout' rfl hagree (.rational id) ⟨120, 60⟩ .light, by decide +kernel,
    by decide +kernel⟩

end Surface
end HomeWidget
