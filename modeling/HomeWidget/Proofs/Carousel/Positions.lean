import HomeWidget.Proofs.Carousel.Band
import HomeWidget.Proofs.Number.Nearest

/-!
# Positions on the screen

The band of pages with doubles for positions: whatever a finger does, by however many pixels, infinitely many and no
number of them included, the band rests on a page and is dragged at most half a page beyond its ends.

Main result: `positions_bounded`.
-/
namespace HomeWidget.Carousel

open Double Scalar

/-- Up to `2 ^ 52` pages the positions among them, and the halves between them, are doubles. -/
def doubles {n : ℕ} (hn : n ≤ 2 ^ 52) : Reading Float n where
  reads := Exactly
  lt_iff := Double.lt_iff
  between hlow hhigh hnumber hnotlow hnothigh :=
    ⟨_, isFinite_of_between hlow.finite hhigh.finite hnumber hnotlow hnothigh, rfl⟩
  whole h := ⟨_, h.unique (exactly_round ⟨isFinite_of_round h.finite, rfl⟩)⟩
  page hk := exactly_ofNat (by omega)
  zero := exactly_zero
  first := exactly_neg exactly_half
  last := by
    refine exactly_sub (exactly_ofNat (by omega)) exactly_half ?_
    have h := representable_mul_zpow (k := 2 * n - 1) (e := -1) (by rw [abs_lt]; omega) (by decide) (by decide)
    have hvalue : ((2 * n - 1 : ℤ) : ℚ) * 2 ^ (-1 : ℤ) = n - 1 / 2 := by
      push_cast
      ring
    rwa [hvalue] at h
  lastPage := by
    refine exactly_sub (exactly_ofNat (by omega)) exactly_one ?_
    have h := representable_intCast (k := (n : ℤ) - 1) (by rw [abs_lt]; omega)
    push_cast at h
    exact h

/--
**The band stays where pages are.** From its first page, after every run of drags, throws and jumps, with any doubles and
any names:
* if there are pages, and at most `2 ^ 52` of them, which no memory exceeds, it rests on one, and is dragged at most half
  a page beyond the first and the last (among more pages, half a page is no longer a double);
* a throw and a jump leave it at rest;
* a name that no page has leaves it as it is;
* without pages it rests at zero, and neither a throw nor a jump reaches a page.
-/
theorem positions_bounded (pages : List Page) (options : Options Float) (moves : List (Move Float)) :
    let c := (ofPages pages options).run moves
    (pages ≠ [] → pages.length ≤ 2 ^ 52 →
        (∃ k < pages.length, Exactly c.snap k)
          ∧ ∃ q, Exactly c.drag q ∧ -(1 / 2) ≤ q ∧ q ≤ pages.length - 1 / 2)
      ∧ (∀ dx, (c.dragEnded dx).1.drag = (c.dragEnded dx).1.snap)
      ∧ (∀ name i, (c.scrollTo name).2 = some i → (c.scrollTo name).1.drag = (c.scrollTo name).1.snap)
      ∧ (∀ name, name ∉ pages.map (·.name) → c.scrollTo name = (c, none))
      ∧ (pages = [] → c.snap = 0.0 ∧ (∀ dx, (c.dragEnded dx).2 = none) ∧ ∀ name, (c.scrollTo name).2 = none) := by
  intro c
  have hpages : c.pages = pages := (run_fixed _ moves).1
  refine ⟨fun hne hlength => ?_, c.drag_eq_snap_of_dragEnded, fun name i => c.drag_eq_snap_of_scrollTo name,
    fun name hname => ?_, fun hnil => ⟨?_, fun dx => ?_, fun name => ?_⟩⟩
  · have hband : InBand (doubles hlength) c := inBand_run hne options moves
    exact ⟨hband.snap, hband.drag⟩
  · refine c.scrollTo_of_not_mem name ?_
    rwa [hpages]
  · exact snap_run_of_nil hnil options moves
  · rw [c.dragEnded_of_nil dx (hpages.trans hnil)]
  · rw [c.scrollTo_of_not_mem name]
    rw [hpages, hnil]
    exact List.not_mem_nil

/-- An infinite throw ends on the last of three pages, and a drag by no number at the end of the band. -/
theorem positions_bounded_wild :
    let pages : List Page := [⟨"a", none⟩, ⟨"b", none⟩, ⟨"c", none⟩]
    let c := (ofPages pages Options.usual).run [.dragEnded (-1.0 / 0.0), .dragChanged (0.0 / 0.0)]
    (∃ q, Exactly c.drag q ∧ -(1 / 2) ≤ q ∧ q ≤ 3 - 1 / 2) ∧ c.snap.toBits = (2.0 : Float).toBits
      ∧ c.drag.toBits = (2.5 : Float).toBits := by
  intro pages c
  refine ⟨?_, by decide +kernel, by decide +kernel⟩
  exact ((positions_bounded pages Options.usual [.dragEnded (-1.0 / 0.0), .dragChanged (0.0 / 0.0)]).1 (by decide)
    (by decide)).2

end HomeWidget.Carousel
