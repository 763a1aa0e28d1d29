import HomeWidget.Proofs.Surface.Placement

/-!
# Previews and live surfaces

A preview shows what the live surface shows; all that it lacks are the areas to activate. A live surface has one behind
everything, if the data of the widget names an address for it, and one after what each cell shows, if the link of the
cell leads somewhere.

Main results: `drawn_live`, `live_shows_preview`.
-/
namespace HomeWidget.Surface

variable {α : Type}

/-! ## §1. Areas to activate -/

/-- Nothing among the primitives can be activated. -/
def Inert (ps : List (Primitive α)) : Prop := ∀ p ∈ ps, p.isHitRegion = false

/-- Everything among the primitives can be activated. -/
def Active (ps : List (Primitive α)) : Prop := ∀ p ∈ ps, p.isHitRegion = true

theorem Inert.shown {ps : List (Primitive α)} (h : Inert ps) : ps.filter (!·.isHitRegion) = ps :=
  List.filter_eq_self.2 fun p hp => by rw [h p hp]; rfl

theorem Inert.activated {ps : List (Primitive α)} (h : Inert ps) : ps.filter (·.isHitRegion) = [] :=
  List.filter_eq_nil_iff.2 fun p hp => by rw [h p hp]; exact Bool.false_ne_true

theorem Active.shown {ps : List (Primitive α)} (h : Active ps) : ps.filter (!·.isHitRegion) = [] :=
  List.filter_eq_nil_iff.2 fun p hp => by rw [h p hp]; exact Bool.false_ne_true

theorem Active.activated {ps : List (Primitive α)} (h : Active ps) : ps.filter (·.isHitRegion) = ps :=
  List.filter_eq_self.2 h

/-- The area that opens the link of a cell in its place. -/
def PlacedCell.area (widget : Widget α) (c : PlacedCell α) : List (Primitive α) :=
  match c.cell.linkUrlDataRef.bind widget.draft.data.get? with
  | some url => [.hitRegion c.frame (.cell url widget.id (some c.index))]
  | none => []

/-- The area of a cell does nothing but react. -/
theorem active_area (widget : Widget α) (c : PlacedCell α) : Active (c.area widget) := by
  unfold PlacedCell.area Active
  split <;> simp [Primitive.isHitRegion]

variable [Scalar α]

/-- The area behind the whole surface. -/
def surfaceArea (widget : Widget α) (target : Size α) : List (Primitive α) :=
  match widget.draft.data.get? "content_url" with
  | some url => [.hitRegion (Rect.ofSize target) (.surface url widget.id)]
  | none => []

theorem active_surfaceArea (widget : Widget α) (target : Size α) : Active (surfaceArea widget target) := by
  unfold surfaceArea Active
  split <;> simp [Primitive.isHitRegion]

/-! ## §2. What a cell shows -/

section

variable {reading : Reading α} {widget : Widget α} {layout : Layout α} {target : Size α}

/-- In a preview nothing of a cell can be activated. -/
theorem inert_drawn (c : PlacedCell α) : Inert (c.drawn (contextOf reading widget layout target true)) := by
  intro p hp
  rcases drawn_cases hp with
    ⟨paint, -, rfl⟩ | ⟨image, source, -, -, rfl⟩ | ⟨node, text, -, -, -, rfl⟩ | ⟨url, hlive, -⟩
  · rfl
  · rfl
  · rfl
  · exact absurd rfl hlive

/-- **On a live surface a cell shows what it shows in a preview**, and then its area. -/
theorem drawn_live (c : PlacedCell α) :
    c.drawn (contextOf reading widget layout target false)
      = c.drawn (contextOf reading widget layout target true) ++ c.area widget := by
  have hlink : cellLink (contextOf reading widget layout target false) c.cell c.index c.frame = c.area widget := by
    show ((c.cell.linkUrlDataRef.bind widget.draft.data.get?).map _).toList = _
    unfold PlacedCell.area
    cases c.cell.linkUrlDataRef.bind widget.draft.data.get? <;> rfl
  have hpreview : cellLink (contextOf reading widget layout target true) c.cell c.index c.frame = [] := rfl
  unfold PlacedCell.drawn drawCell
  rw [hlink, hpreview, List.append_nil]
  rfl

end

/-- What stands for an unknown layout reacts to nothing. -/
theorem inert_unknownLayout (target : Size α) (appearance : Appearance) : Inert (unknownLayout target appearance) := by
  unfold unknownLayout Inert
  cases appearance <;> simp [Primitive.isHitRegion]

/-! ## §3. The whole surface -/

/-- On a live surface the link of the content, if there is one, has the whole surface as its area. -/
theorem surfaceLink_live (widget : Widget α) (target : Size α) :
    surfaceLink widget target false = surfaceArea widget target := by
  show ((widget.draft.data.get? "content_url").map _).toList = _
  unfold surfaceArea
  cases widget.draft.data.get? "content_url" <;> rfl

/-- **A preview and a live surface draw the same thing.** Without its areas to activate the live surface is the
preview. These areas are the one behind the surface and those of the cells; the first of them is at the head, and each
of the others comes right after what its cell shows, before anything of a later cell. A surface for which there is no
layout has no cells, and so only the area behind it. -/
theorem live_shows_preview (reading : Reading α) (widget : Widget α) (layoutName : String) (target : Size α)
    (appearance : Appearance) :
    let preview := render reading widget layoutName target ⟨true, appearance⟩
    let live := render reading widget layoutName target ⟨false, appearance⟩
    live.filter (!·.isHitRegion) = preview
      ∧ match widget.layout? layoutName with
        | none => live = surfaceArea widget target ++ preview
        | some layout =>
          let shown := fun c : PlacedCell α => c.drawn (contextOf reading widget layout target true)
          (∀ layer ∈ layout.layers, Arranges layer (placeLayer target layer))
            ∧ (∀ c, Inert (shown c))
            ∧ preview = (placeLayout target layout).flatMap shown
            ∧ live = surfaceArea widget target
              ++ (placeLayout target layout).flatMap (fun c => shown c ++ c.area widget)
            ∧ live.filter (·.isHitRegion)
              = surfaceArea widget target ++ (placeLayout target layout).flatMap (·.area widget) := by
  intro preview live
  have hhead := active_surfaceArea widget target
  cases h : widget.layout? layoutName with
  | none =>
    have hpreview : preview = unknownLayout target appearance := render_of_missing h
    have hlive : live = surfaceArea widget target ++ preview := by
      rw [hpreview, ← surfaceLink_live]
      exact render_of_missing h
    refine ⟨?_, hlive⟩
    rw [hlive, hpreview, List.filter_append, hhead.shown, (inert_unknownLayout target appearance).shown,
      List.nil_append]
  | some layout =>
    dsimp only
    have hpreview : preview = (placeLayout target layout).flatMap
        (·.drawn (contextOf reading widget layout target true)) := render_of_layout h
    have hlive : live = surfaceArea widget target ++ (placeLayout target layout).flatMap fun c =>
        c.drawn (contextOf reading widget layout target true) ++ c.area widget := by
      rw [← surfaceLink_live]
      simp only [← drawn_live]
      exact render_of_layout h
    refine ⟨?_, fun layer _ => arranges_placeLayer target layer, inert_drawn, hpreview, hlive, ?_⟩
    · rw [hlive, List.filter_append, hhead.shown, List.nil_append, List.filter_flatMap, hpreview]
      simp only [List.filter_append, (inert_drawn _).shown, (active_area _ _).shown, List.append_nil]
    · rw [hlive, List.filter_append, hhead.activated, List.filter_flatMap]
      simp only [List.filter_append, (inert_drawn _).activated, (active_area _ _).activated, List.nil_append]

end HomeWidget.Surface
