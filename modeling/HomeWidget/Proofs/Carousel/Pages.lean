import HomeWidget.Carousel
import HomeWidget.Proofs.Definition.Restriction
import HomeWidget.Proofs.Fetch.StoredCopy

/-!
# The pages that a host offers

The carousel has a page for each name of the display order, whatever the name leads to. A host that does not show the
extra large size restricts every document that it decodes, and then each of its pages is one of a layout, of another
size. The same holds of the other names that lead into a widget: of the layout that opens and of the thumbnail.

Main results: `pagesOf_restrict`, `pages_are_shown`.
-/
namespace HomeWidget

variable {α : Type}

/-! ## §1. Names of a widget -/

/-- A name leads to this layout of a restricted definition: it is a layout that the definition has, unchanged, of another
size than the one that goes. -/
structure Draft.Keeps (d : Draft α) (name : String) (l : Layout α) : Prop where
  had : d.layouts.get? name = some l
  size_ne : l.size ≠ .extraLarge

theorem Draft.keeps_of_get? {d : Draft α} {name : String} {l : Layout α}
    (h : (d.restrict false).layouts.get? name = some l) : d.Keeps name l := by
  obtain ⟨hhad, hsize⟩ := get?_restrict_eq_some_iff.1 h
  exact ⟨hhad, hsize⟩

/-- The thumbnail exists, and it is small. -/
theorem Draft.exists_of_thumbnailLayoutName? {d : Draft α} {name : String} (h : d.thumbnailLayoutName? = some name) :
    ∃ l, d.layouts.get? name = some l ∧ l.size = .small := by
  unfold thumbnailLayoutName? at h
  obtain ⟨-, hsmall⟩ := Option.filter_eq_some_iff.1 h
  cases hlayout : d.layouts.get? name with
  | none =>
    rw [hlayout] at hsmall
    cases hsmall
  | some l =>
    rw [hlayout] at hsmall
    exact ⟨l, rfl, eq_of_beq hsmall⟩

namespace Carousel

/-- **Every page of a restricted definition is the page of a layout that was kept.** -/
theorem pagesOf_restrict [Scalar α] {d : Draft α} {id : String} {page : Page}
    (h : page ∈ pagesOf ⟨id, d.restrict false⟩) : ∃ l, d.Keeps page.name l ∧ page.size = some l.size := by
  unfold pagesOf at h
  obtain ⟨name, hname, rfl⟩ := List.mem_map.1 h
  obtain ⟨l, hl⟩ := Draft.exists_of_contains (Draft.contains_of_mem_displayOrder hname)
  refine ⟨l, Draft.keeps_of_get? hl, ?_⟩
  show ((d.restrict false).layouts.get? name).map (·.size) = some l.size
  rw [hl]
  rfl

/-! ## §2. What a host shows -/

/--
**A host without the extra large size shows no layout of that size, and no name without a layout.** Of every document
that it decodes, under any id:
* the layouts of the widget are those of the document that are not extra large, unchanged and in their order;
* every name of the display order leads to one of them;
* so does every page of the carousel, and it has the size of its layout, which is not extra large;
* so does the name of the layout that opens, if there is one;
* so does the name of the thumbnail, if there is one, and its layout is small.
-/
theorem pages_are_shown (options : FetchOptions) (hsize : options.supportsExtraLarge = false) (bytes : Bytes)
    (id : String) (w : Widget Float) (hdecode : options.decode bytes id = .ok w) (band : Options Float) :
    w.id = id ∧ ∃ d, Draft.readBytes bytes = .ok d
      ∧ w.draft.layouts.entries = d.layouts.entries.filter (·.2.size ≠ .extraLarge)
      ∧ (∀ m ∈ w.draft.layouts.entries, m.2.size ≠ .extraLarge)
      ∧ (∀ name ∈ w.draft.displayOrder, ∃ l, w.layout? name = some l)
      ∧ (∀ page ∈ (ofWidget w band).pages, ∃ l, w.layout? page.name = some l ∧ page.size = some l.size
          ∧ l.size ≠ .extraLarge)
      ∧ (∀ name ∈ w.draft.defaultLayoutName?, ∃ l, w.layout? name = some l ∧ d.layouts.get? name = some l
          ∧ l.size ≠ .extraLarge)
      ∧ ∀ name ∈ w.draft.thumbnailLayoutName?, ∃ l, w.layout? name = some l ∧ d.layouts.get? name = some l
          ∧ l.size = .small := by
  obtain ⟨d, hread, hw⟩ := decode_eq_ok_iff.1 hdecode
  rw [hsize] at hw
  subst hw
  refine ⟨rfl, d, hread, rfl, (Draft.restricted_restrict d).sizes, fun name hname => ?_, fun page hpage => ?_,
    fun name hname => ?_, fun name hname => ?_⟩
  · exact Draft.exists_of_contains (Draft.contains_of_mem_displayOrder hname)
  · obtain ⟨l, hkeeps, hpagesize⟩ := pagesOf_restrict hpage
    exact ⟨l, Draft.get?_restrict_eq_some_iff.2 ⟨hkeeps.had, hkeeps.size_ne⟩, hpagesize, hkeeps.size_ne⟩
  · obtain ⟨l, hl⟩ := Draft.exists_of_defaultLayoutName? hname
    have hkeeps := Draft.keeps_of_get? hl
    exact ⟨l, hl, hkeeps.had, hkeeps.size_ne⟩
  · obtain ⟨l, hl, hsmall⟩ := Draft.exists_of_thumbnailLayoutName? hname
    exact ⟨l, hl, (Draft.keeps_of_get? hl).had, hsmall⟩

/-- The board, decoded by a host without the extra large size: its default was extra large and its order names it first,
and the one page is that of the small layout. -/
theorem pages_are_shown_board :
    let bytes := Utf8.ofString Draft.board.toJson.toText
    let w : Widget Float := ⟨"https://example.com/w.json", Draft.board.restrict false⟩
    FetchOptions.usual.decode bytes "https://example.com/w.json" = .ok w
      ∧ (ofWidget w Options.usual).pages = [⟨"small", some .small⟩]
      ∧ ∃ l, w.layout? "small" = some l ∧ some SizeClass.small = some l.size ∧ l.size ≠ .extraLarge := by
  intro bytes w
  have hboard : Draft.readBytes bytes = .ok Draft.board :=
    Draft.readBytes_toText ⟨by decide +kernel, by decide +kernel⟩
  have hdecode : FetchOptions.usual.decode bytes "https://example.com/w.json" = .ok w :=
    decode_eq_ok_iff.2 ⟨Draft.board, hboard, rfl⟩
  have hpages : (ofWidget w Options.usual).pages = [⟨"small", some .small⟩] := by decide
  obtain ⟨-, d, -, -, -, -, hshown, -⟩ :=
    pages_are_shown FetchOptions.usual rfl bytes "https://example.com/w.json" w hdecode Options.usual
  refine ⟨hdecode, hpages, hshown ⟨"small", some .small⟩ ?_⟩
  rw [hpages]
  exact List.mem_cons_self

end Carousel
end HomeWidget
