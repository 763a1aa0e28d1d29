import HomeWidget.Proofs.Definition.RoundTrip

/-!
# Definitions without the extra large size

A definition is restricted for surfaces that do not come in the extra large size. Its layouts of that size go, and its
display order keeps the names that still lead to a layout. So a name of the order goes with its layout, but a name that
never led to one goes as well. Both filters see a name by one and the same test, namely what the name led to before.

The layout that opens is looked for among the names that are offered. It exists whenever it is found; and it is not found
either because there is no layout at all, or because neither the default nor the order leads to one.

Main results: `Restricted`, `restrict_eq_self_iff`, `restricted_exactly`, `opens_or_leads_nowhere`.
-/
namespace HomeWidget.Draft

variable {α : Type}

/-! ## §1. What is kept -/

/-- A layout is found after the restriction if it was before and is not extra large. -/
theorem get?_restrict (d : Draft α) (name : String) :
    (d.restrict false).layouts.get? name = (d.layouts.get? name).filter (·.size ≠ .extraLarge) :=
  Table.get?_filter _ d.layouts name

/-- **A name leads to a kept layout** if it led to it before, and the layout is not extra large. -/
theorem get?_restrict_eq_some_iff {d : Draft α} {name : String} {l : Layout α} :
    (d.restrict false).layouts.get? name = some l ↔ d.layouts.get? name = some l ∧ l.size ≠ .extraLarge := by
  rw [get?_restrict, Option.filter_eq_some_iff, decide_eq_true_iff]

theorem contains_restrict (d : Draft α) (name : String) :
    (d.restrict false).layouts.contains name = (d.layouts.get? name).any (·.size ≠ .extraLarge) := by
  unfold Table.contains
  rw [get?_restrict]
  cases d.layouts.get? name with
  | none => rfl
  | some l => by_cases h : l.size = .extraLarge <;> simp [h]

/-- The display order keeps the names of such layouts, and only these. -/
theorem layoutDisplayOrder_restrict (d : Draft α) :
    (d.restrict false).layoutDisplayOrder
      = d.layoutDisplayOrder.map (·.filter fun name => (d.layouts.get? name).any (·.size ≠ .extraLarge)) := by
  have htest : (d.restrict false).layouts.contains = fun name => (d.layouts.get? name).any (·.size ≠ .extraLarge) :=
    funext (contains_restrict d)
  rw [← htest]
  rfl

/-- A name of the order of a restricted definition leads to a layout, whether the order was given or not. -/
theorem contains_of_mem_displayOrder {d : Draft α} {name : String} (h : name ∈ (d.restrict false).displayOrder) :
    (d.restrict false).layouts.contains name = true := by
  unfold displayOrder at h
  cases horder : (d.restrict false).layoutDisplayOrder with
  | none =>
    rw [horder] at h
    exact Table.mem_names_iff.1 h
  | some order =>
    rw [horder] at h
    -- an order that is there is what the filter left of the given one
    have hfiltered : d.layoutDisplayOrder.map (·.filter (d.restrict false).layouts.contains) = some order := horder
    obtain ⟨given, -, rfl⟩ := Option.map_eq_some_iff.1 hfiltered
    exact (List.mem_filter.1 h).2

/-- A definition holds nothing that goes: no extra large layout, and in its order no name that leads nowhere. -/
structure Restricted (d : Draft α) : Prop where
  sizes : ∀ m ∈ d.layouts.entries, m.2.size ≠ .extraLarge
  names : ∀ order ∈ d.layoutDisplayOrder, ∀ name ∈ order, d.layouts.contains name = true

/-- What is left of a definition is restricted. -/
theorem restricted_restrict (d : Draft α) : (d.restrict false).Restricted where
  sizes m hm := of_decide_eq_true (List.mem_filter.1 hm).2
  names order horder name hname := by
    refine contains_of_mem_displayOrder ?_
    unfold displayOrder
    rw [Option.mem_def.1 horder]
    exact hname

/-- **A definition stays as it is just when it holds nothing that goes.** -/
theorem restrict_eq_self_iff (d : Draft α) : d.restrict false = d ↔ d.Restricted := by
  constructor
  · intro h
    rw [← h]
    exact restricted_restrict d
  · rintro ⟨hsizes, hnames⟩
    have hlayouts : (d.restrict false).layouts = d.layouts :=
      Table.ext (List.filter_eq_self.2 fun m hm => decide_eq_true (hsizes m hm))
    have horder : (d.restrict false).layoutDisplayOrder = d.layoutDisplayOrder := by
      show d.layoutDisplayOrder.map (·.filter (d.restrict false).layouts.contains) = d.layoutDisplayOrder
      rw [hlayouts]
      cases hgiven : d.layoutDisplayOrder with
      | none => rfl
      | some order => exact congrArg some (List.filter_eq_self.2 (hnames order hgiven))
    calc d.restrict false
        = { d with
            layouts := (d.restrict false).layouts
            layoutDisplayOrder := (d.restrict false).layoutDisplayOrder } := rfl
      _ = d := by rw [hlayouts, horder]

/--
**What a definition loses with the extra large size.** Of every definition:
* the layouts of that size go, and no other; the rest keep their order;
* the order keeps the names that lead to a layout of another size, each as often as it stood there and in its place. What
  goes from it are the names of extra large layouts and the names that led nowhere;
* everything else stays;
* nothing changes just when there was nothing to go, and so a second time nothing does.
-/
theorem restricted_exactly (d : Draft α) :
    let kept := d.restrict false
    kept.layouts.entries = d.layouts.entries.filter (·.2.size ≠ .extraLarge)
      ∧ kept.layoutDisplayOrder
        = d.layoutDisplayOrder.map (·.filter fun name => (d.layouts.get? name).any (·.size ≠ .extraLarge))
      ∧ { kept with layouts := d.layouts, layoutDisplayOrder := d.layoutDisplayOrder } = d
      ∧ (kept = d ↔ (∀ m ∈ d.layouts.entries, m.2.size ≠ .extraLarge)
          ∧ ∀ order ∈ d.layoutDisplayOrder, ∀ name ∈ order, d.layouts.contains name = true)
      ∧ kept.restrict false = kept := by
  intro kept
  refine ⟨rfl, layoutDisplayOrder_restrict d, rfl, ?_, (restrict_eq_self_iff kept).2 (restricted_restrict d)⟩
  exact (restrict_eq_self_iff d).trans ⟨fun h => ⟨h.sizes, h.names⟩, fun h => ⟨h.1, h.2⟩⟩

/-- A definition with one small layout, and with this display order. -/
def ordered (order : List String) : Draft Float where
  name := "n"
  description := none
  contentLastModified := none
  version := none
  data := .empty
  defaultLayout := none
  thumbnailLayout := none
  layoutDisplayOrder := some order
  layouts := ⟨[("a", ⟨.small, ⟨none, none⟩, []⟩)], by decide⟩

/-- **A name that leads nowhere goes although nothing is extra large**: no layout goes, and still the order loses a name,
which is not the name of a layout that went. -/
theorem dangling_name_goes :
    let d := ordered ["zzz", "a"]
    (∀ m ∈ d.layouts.entries, m.2.size ≠ .extraLarge)
      ∧ (d.restrict false).layoutDisplayOrder = some ["a"]
      ∧ d.layoutDisplayOrder.map (·.filter fun name => !(d.layouts.get? name).any (·.size = .extraLarge))
        = some ["zzz", "a"]
      ∧ d.restrict false ≠ d := by
  intro d
  refine ⟨by decide, by decide, by decide, fun h => ?_⟩
  have horder : (d.restrict false).layoutDisplayOrder = d.layoutDisplayOrder := by rw [h]
  exact absurd horder (by decide)

/-! ## §2. The layout that opens -/

theorem contains_eq_false_iff {d : Draft α} {name : String} :
    d.layouts.contains name = false ↔ d.layouts.get? name = none := by
  unfold Table.contains
  rw [Option.isSome_eq_false_iff, Option.isNone_iff_eq_none]

theorem exists_of_contains {d : Draft α} {name : String} (h : d.layouts.contains name = true) :
    ∃ l, d.layouts.get? name = some l :=
  Option.isSome_iff_exists.1 h

/-- No layout opens just when neither the default nor the order leads to one. -/
theorem defaultLayoutName?_eq_none_iff (d : Draft α) :
    d.defaultLayoutName? = none ↔ (∀ name ∈ d.defaultLayout, d.layouts.get? name = none)
      ∧ ∀ name ∈ d.displayOrder, d.layouts.get? name = none := by
  unfold defaultLayoutName?
  rw [Option.orElse_eq_none, Option.filter_eq_none_iff, List.find?_eq_none]
  simp only [Bool.not_eq_true, contains_eq_false_iff, Option.mem_def]

/-- **The layout that opens exists.** -/
theorem exists_of_defaultLayoutName? {d : Draft α} {name : String} (h : d.defaultLayoutName? = some name) :
    ∃ l, d.layouts.get? name = some l := by
  unfold defaultLayoutName? at h
  rcases (Option.orElse_eq_some _ _ _).1 h with hdefault | ⟨-, hfound⟩
  · exact exists_of_contains (Option.filter_eq_some_iff.1 hdefault).2
  · exact exists_of_contains (List.find?_some hfound)

/-- Without an order that is given, the order leads nowhere only if there is no layout. -/
theorem leads_nowhere_iff_of_no_order {d : Draft α} (h : d.layoutDisplayOrder = none) :
    (∀ name ∈ d.displayOrder, d.layouts.get? name = none) ↔ d.layouts.entries = [] := by
  have horder : d.displayOrder = d.layouts.names := by
    unfold displayOrder
    rw [h]
    rfl
  rw [horder]
  constructor
  · intro hnowhere
    -- the first layout would be led to by its name
    cases hentries : d.layouts.entries with
    | nil => rfl
    | cons m rest =>
      have hmem : m.1 ∈ d.layouts.names := by
        unfold Table.names
        rw [hentries]
        exact List.mem_cons_self
      have hsome := Table.mem_names_iff.1 hmem
      rw [hnowhere m.1 hmem] at hsome
      cases hsome
  · exact fun hentries name _ => Table.get?_of_entries_eq_nil hentries name

/--
**A widget opens with a layout that it has, or its names lead nowhere.** Of every definition, under any id, and with the
extra large size or without it:
* no layout opens just when the widget has none at all, or when a display order is given that leads to none of them and
  neither does the default;
* a layout that opens is one of the widget.
-/
theorem opens_or_leads_nowhere (d : Draft α) (id : String) (supportsExtraLarge : Bool) :
    let w : Widget α := ⟨id, d.restrict supportsExtraLarge⟩
    (w.draft.defaultLayoutName? = none ↔ w.draft.layouts.entries = []
        ∨ (∃ order, w.draft.layoutDisplayOrder = some order ∧ ∀ name ∈ order, w.layout? name = none)
          ∧ ∀ name ∈ w.draft.defaultLayout, w.layout? name = none)
      ∧ ∀ name, w.draft.defaultLayoutName? = some name → ∃ l, w.layout? name = some l := by
  intro w
  refine ⟨?_, fun name h => exists_of_defaultLayoutName? h⟩
  rw [defaultLayoutName?_eq_none_iff]
  constructor
  · rintro ⟨hdefault, horder⟩
    cases hgiven : w.draft.layoutDisplayOrder with
    | none => exact Or.inl ((leads_nowhere_iff_of_no_order hgiven).1 horder)
    | some order =>
      unfold displayOrder at horder
      rw [hgiven] at horder
      exact Or.inr ⟨⟨order, rfl, horder⟩, hdefault⟩
  · rintro (hnone | ⟨⟨order, hgiven, horder⟩, hdefault⟩)
    · -- without layouts no name leads anywhere
      have hnowhere := Table.get?_of_entries_eq_nil hnone
      exact ⟨fun name _ => hnowhere name, fun name _ => hnowhere name⟩
    · refine ⟨hdefault, ?_⟩
      unfold displayOrder
      rw [hgiven]
      exact horder

/-- Without its extra large layout, which is its default, the board opens with the small one. -/
theorem opens_or_leads_nowhere_board :
    let w : Widget Float := ⟨"https://example.com/w.json", board.restrict false⟩
    w.draft.defaultLayoutName? = some "small" ∧ ∃ l, w.layout? "small" = some l := by
  intro w
  have hopens : w.draft.defaultLayoutName? = some "small" := by decide
  exact ⟨hopens, (opens_or_leads_nowhere board "https://example.com/w.json" false).2 "small" hopens⟩

/-- **A layout that no name leads to does not open**: a definition that can be read has a layout, its display order is
empty, and neither with the extra large size nor without it does a layout open. -/
theorem unlisted_layout_does_not_open :
    let d := ordered []
    Draft.readBytes (Utf8.ofString d.toJson.toText) = .ok d
      ∧ ∀ supportsExtraLarge, (d.restrict supportsExtraLarge).defaultLayoutName? = none
        ∧ (d.restrict supportsExtraLarge).layouts.names = ["a"] := by
  intro d
  refine ⟨readBytes_toText ⟨by decide +kernel, by decide +kernel⟩, fun supportsExtraLarge => ?_⟩
  cases supportsExtraLarge with
  | true => exact ⟨by decide, by decide⟩
  | false => exact ⟨by decide, by decide⟩

end HomeWidget.Draft
