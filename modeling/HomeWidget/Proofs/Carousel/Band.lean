import HomeWidget.Carousel
import HomeWidget.Proofs.Scalar

/-!
# The band of pages in motion

What a run of moves keeps, for every scalar that stands for rational numbers as far as the positions among the pages need
it: the band rests on a page, and is dragged at most half a page beyond the first and the last one. Whatever a move is
given, be it a number or not, its bounds bring it back, so that this is kept by each move and thus by every run.

Main results: `inBand_move`, `inBand_run`.
-/
namespace HomeWidget.Carousel

open Scalar

variable {α : Type} [Scalar α]

/-! ## §1. Runs -/

/-- The band after moves in turn. -/
def run (c : Carousel α) (moves : List (Move α)) : Carousel α := moves.foldl (fun c m => (c.move m).1) c

/-- What every move keeps, every run keeps. -/
theorem run_induction {motive : Carousel α → Prop} (hmove : ∀ c m, motive c → motive (c.move m).1) (c : Carousel α)
    (moves : List (Move α)) (h : motive c) : motive (c.run moves) := by
  unfold run
  induction moves generalizing c with
  | nil => exact h
  | cons m rest ih => exact ih (c.move m).1 (hmove c m h)

variable (c : Carousel α) (dx : α) (name : String)

/-- A throw on a band with pages brings it to rest. -/
theorem dragEnded_of_ne_nil (h : c.pages ≠ []) :
    c.dragEnded dx =
      let page := least (greatest (round (c.snap - dx / c.options.flingDivisor)) 0.0) (c.count - 1.0)
      ({ c with drag := page, snap := page }, { c with drag := page, snap := page : Carousel α }.currentItem?) := by
  unfold dragEnded
  rw [if_neg]
  rwa [List.isEmpty_iff]

theorem dragEnded_of_nil (h : c.pages = []) : c.dragEnded dx = ({ c with drag := 0.0, snap := 0.0 }, none) := by
  unfold dragEnded
  rw [if_pos]
  rwa [List.isEmpty_iff]

/-- A jump that finds no page leaves the band as it is. -/
theorem scrollTo_of_none (h : c.pages.findIdx? (·.name == name) = none) : c.scrollTo name = (c, none) := by
  unfold scrollTo
  rw [h]

/-- The names of the pages tell whether the band jumps. -/
theorem scrollTo_of_not_mem (h : name ∉ c.pages.map (·.name)) : c.scrollTo name = (c, none) := by
  apply scrollTo_of_none
  rw [List.findIdx?_eq_none_iff]
  intro page hpage
  rw [beq_eq_false_iff_ne]
  rintro rfl
  exact h (List.mem_map_of_mem hpage)

theorem scrollTo_of_findIdx? {i : ℕ} (h : c.pages.findIdx? (·.name == name) = some i) :
    c.scrollTo name = ({ c with drag := Scalar.ofNat i, snap := Scalar.ofNat i }, some i) := by
  unfold scrollTo
  rw [h]

/-- The page that the band jumps to is the first of the name. -/
theorem findIdx?_of_scrollTo {i : ℕ} (h : (c.scrollTo name).2 = some i) :
    c.pages.findIdx? (·.name == name) = some i := by
  unfold scrollTo at h
  cases hfind : c.pages.findIdx? (·.name == name) with
  | none =>
    rw [hfind] at h
    cases h
  | some index =>
    rw [hfind] at h
    exact h

/-- No move changes the pages or how the band moves. -/
theorem move_fixed (m : Move α) : (c.move m).1.pages = c.pages ∧ (c.move m).1.options = c.options := by
  cases m with
  | dragChanged dx => exact ⟨rfl, rfl⟩
  | dragEnded dx =>
    show (c.dragEnded dx).1.pages = c.pages ∧ (c.dragEnded dx).1.options = c.options
    unfold dragEnded
    split <;> exact ⟨rfl, rfl⟩
  | scrollTo name =>
    show (c.scrollTo name).1.pages = c.pages ∧ (c.scrollTo name).1.options = c.options
    unfold scrollTo
    split <;> exact ⟨rfl, rfl⟩

theorem run_fixed (moves : List (Move α)) : (c.run moves).pages = c.pages ∧ (c.run moves).options = c.options :=
  run_induction (motive := fun d => d.pages = c.pages ∧ d.options = c.options)
    (fun d m h => ⟨(d.move_fixed m).1.trans h.1, (d.move_fixed m).2.trans h.2⟩) c moves ⟨rfl, rfl⟩

/-- **A throw leaves the band at rest.** -/
theorem drag_eq_snap_of_dragEnded : (c.dragEnded dx).1.drag = (c.dragEnded dx).1.snap := by
  unfold dragEnded
  split <;> rfl

/-- **A jump leaves the band at rest.** -/
theorem drag_eq_snap_of_scrollTo {i : ℕ} (h : (c.scrollTo name).2 = some i) :
    (c.scrollTo name).1.drag = (c.scrollTo name).1.snap := by
  rw [c.scrollTo_of_findIdx? name (c.findIdx?_of_scrollTo name h)]

/-! ## §2. Scalars that stand for numbers -/

/-- How scalars stand for rational numbers, as far as the positions among `n` pages need it. -/
structure Reading (α : Type) [Scalar α] (n : ℕ) where
  /-- The scalar stands for the number. -/
  reads : α → ℚ → Prop
  lt_iff {x y : α} {p q : ℚ} : reads x p → reads y q → (x < y ↔ p < q)
  /-- What is a number and between two scalars that stand for one stands for one. -/
  between {x low high : α} {p q : ℚ} :
    reads low p → reads high q → x ≤ x → ¬x < low → ¬high < x → ∃ r, reads x r
  /-- Only what stands for a number is rounded to one, and to a whole one. -/
  whole {x : α} {q : ℚ} : reads (round x) q → ∃ z : ℤ, q = z
  page {k : ℕ} : k < n → reads (Scalar.ofNat k) k
  zero : reads 0.0 0
  first : reads (-(0.5 : α)) (-(1 / 2))
  last : reads (Scalar.ofNat n - 0.5) (n - 1 / 2)
  lastPage : reads (Scalar.ofNat n - 1.0) (n - 1)

namespace Reading

variable {n : ℕ} (R : Reading α n) {x low high : α} {p q : ℚ}

/-- A number between two that are read is read, and lies between what these stand for. -/
theorem exists_reads (hlow : R.reads low p) (hhigh : R.reads high q) (hnumber : x ≤ x) (hnotlow : ¬x < low)
    (hnothigh : ¬high < x) : ∃ r, R.reads x r ∧ p ≤ r ∧ r ≤ q := by
  obtain ⟨r, hr⟩ := R.between hlow hhigh hnumber hnotlow hnothigh
  rw [R.lt_iff hr hlow, not_lt] at hnotlow
  rw [R.lt_iff hhigh hr, not_lt] at hnothigh
  exact ⟨r, hr, hnotlow, hnothigh⟩

/-- A scalar that is held below a bound first and above one then stands for a number between the two. -/
theorem greatest_least (hlow : R.reads low p) (hhigh : R.reads high q) (hle : p ≤ q) (x : α) :
    ∃ r, R.reads (greatest (least x high) low) r ∧ p ≤ r ∧ r ≤ q := by
  rcases least_cases x high with hleast | ⟨hleast, hnumber, hnothigh⟩ <;> rw [hleast]
  · rcases greatest_cases high low with hgreatest | ⟨hgreatest, -⟩ <;> rw [hgreatest]
    · exact ⟨p, hlow, le_rfl, hle⟩
    · exact ⟨q, hhigh, hle, le_rfl⟩
  · rcases greatest_cases x low with hgreatest | ⟨hgreatest, -, hnotlow⟩ <;> rw [hgreatest]
    · exact ⟨p, hlow, le_rfl, hle⟩
    · exact R.exists_reads hlow hhigh hnumber hnotlow hnothigh

/-- A scalar that is held above a bound first and below one then stands for a number between the two: for one of them or
for its own. -/
theorem least_greatest (hlow : R.reads low p) (hhigh : R.reads high q) (hle : p ≤ q) (x : α) :
    ∃ r, R.reads (least (greatest x low) high) r ∧ p ≤ r ∧ r ≤ q ∧ (r = p ∨ r = q ∨ R.reads x r) := by
  rcases greatest_cases x low with hgreatest | ⟨hgreatest, hnumber, hnotlow⟩ <;> rw [hgreatest]
  · rcases least_cases low high with hleast | ⟨hleast, -⟩ <;> rw [hleast]
    · exact ⟨q, hhigh, hle, le_rfl, Or.inr (Or.inl rfl)⟩
    · exact ⟨p, hlow, le_rfl, hle, Or.inl rfl⟩
  · rcases least_cases x high with hleast | ⟨hleast, -, hnothigh⟩ <;> rw [hleast]
    · exact ⟨q, hhigh, hle, le_rfl, Or.inr (Or.inl rfl)⟩
    · obtain ⟨r, hr, hlowr, hrhigh⟩ := R.exists_reads hlow hhigh hnumber hnotlow hnothigh
      exact ⟨r, hr, hlowr, hrhigh, Or.inr (Or.inr hr)⟩

end Reading

/-! ## §3. What every move keeps -/

variable {n : ℕ} (R : Reading α n) {c : Carousel α}

/-- The band rests on one of its `n` pages, and is dragged at most half a page beyond its ends. -/
structure InBand (c : Carousel α) : Prop where
  length : c.pages.length = n
  snap : ∃ k < n, R.reads c.snap k
  drag : ∃ q, R.reads c.drag q ∧ -(1 / 2) ≤ q ∧ q ≤ n - 1 / 2

variable {R}

theorem InBand.one_le (h : InBand R c) : (1 : ℚ) ≤ n := by
  obtain ⟨k, hk, -⟩ := h.snap
  exact_mod_cast (show 1 ≤ n by omega)

theorem InBand.ne_nil (h : InBand R c) : c.pages ≠ [] := by
  obtain ⟨k, hk, -⟩ := h.snap
  rw [← List.length_pos_iff, h.length]
  omega

theorem InBand.count_eq (h : InBand R c) : c.count = Scalar.ofNat n := congrArg Scalar.ofNat h.length

/-- A band at rest on a page is within its bounds. -/
theorem inBand_of_page {k : ℕ} (hk : k < n) {x : α} (hx : R.reads x k) (hlength : c.pages.length = n) :
    InBand R { c with drag := x, snap := x } where
  length := hlength
  snap := ⟨k, hk, hx⟩
  drag := by
    have hlow : (0 : ℚ) ≤ k := Nat.cast_nonneg k
    have hhigh : (k : ℚ) + 1 ≤ n := by exact_mod_cast hk
    exact ⟨k, hx, by linarith, by linarith⟩

theorem inBand_dragChanged (h : InBand R c) (dx : α) : InBand R (c.dragChanged dx) where
  length := h.length
  snap := h.snap
  drag := by
    have hlast : R.reads (c.count - 0.5) (n - 1 / 2) := by
      rw [h.count_eq]
      exact R.last
    exact R.greatest_least R.first hlast (by linarith [h.one_le]) _

/-- A throw ends within the band. -/
theorem inBand_dragEnded (h : InBand R c) (dx : α) : InBand R (c.dragEnded dx).1 := by
  have hlast : R.reads (c.count - 1.0) (n - 1) := by
    rw [h.count_eq]
    exact R.lastPage
  obtain ⟨r, hr, hlow, hhigh, hone⟩ :=
    R.least_greatest R.zero hlast (by linarith [h.one_le]) (round (c.snap - dx / c.options.flingDivisor))
  -- the bounds are whole, and so is what was rounded
  obtain ⟨z, hz⟩ : ∃ z : ℤ, r = z := by
    rcases hone with rfl | rfl | hround
    · exact ⟨0, Int.cast_zero.symm⟩
    · exact ⟨n - 1, by push_cast; rfl⟩
    · exact R.whole hround
  have hnonneg : 0 ≤ z := by
    rw [hz] at hlow
    exact_mod_cast hlow
  have hless : z ≤ n - 1 := by
    rw [hz] at hhigh
    exact_mod_cast hhigh
  rw [c.dragEnded_of_ne_nil dx h.ne_nil]
  refine inBand_of_page (k := z.toNat) (by omega) ?_ h.length
  have hcast : ((z.toNat : ℕ) : ℚ) = z := by
    have hnat : ((z.toNat : ℕ) : ℤ) = z := Int.toNat_of_nonneg hnonneg
    exact_mod_cast hnat
  rw [hcast, ← hz]
  exact hr

/-- A jump to a page ends within the band. -/
theorem inBand_scrollTo (h : InBand R c) (name : String) : InBand R (c.scrollTo name).1 := by
  cases hfind : c.pages.findIdx? (·.name == name) with
  | none =>
    rw [c.scrollTo_of_none name hfind]
    exact h
  | some i =>
    have hi : i < n := by
      rw [← h.length]
      exact (List.findIdx?_eq_some_iff_getElem.1 hfind).1
    rw [c.scrollTo_of_findIdx? name hfind]
    exact inBand_of_page hi (R.page hi) h.length

/-- **Every move keeps the band within its bounds.** -/
theorem inBand_move (h : InBand R c) (m : Move α) : InBand R (c.move m).1 := by
  cases m with
  | dragChanged dx => exact inBand_dragChanged h dx
  | dragEnded dx => exact inBand_dragEnded h dx
  | scrollTo name => exact inBand_scrollTo h name

/-- **Every run from the first page keeps the band within its bounds.** -/
theorem inBand_run {pages : List Page} {R : Reading α pages.length} (hpages : pages ≠ []) (options : Options α)
    (moves : List (Move α)) : InBand R ((ofPages pages options).run moves) := by
  refine run_induction (motive := InBand R) (fun c m h => inBand_move h m) _ moves ?_
  have hzero : R.reads (0.0 : α) ((0 : ℕ) : ℚ) := by
    rw [Nat.cast_zero]
    exact R.zero
  exact inBand_of_page (c := ofPages pages options) (List.length_pos_iff.2 hpages) hzero rfl

/-- Without pages the band rests at zero. -/
theorem snap_run_of_nil {pages : List Page} (hpages : pages = []) (options : Options α) (moves : List (Move α)) :
    ((ofPages pages options).run moves).snap = 0.0 := by
  have hzero := run_induction (motive := fun c : Carousel α => c.pages = [] ∧ c.snap = 0.0) (fun c m h => ?_)
    (ofPages pages options) moves ⟨hpages, rfl⟩
  · exact hzero.2
  · refine ⟨(c.move_fixed m).1.trans h.1, ?_⟩
    cases m with
    | dragChanged dx => exact h.2
    | dragEnded dx =>
      show (c.dragEnded dx).1.snap = 0.0
      rw [c.dragEnded_of_nil dx h.1]
    | scrollTo name =>
      show (c.scrollTo name).1.snap = 0.0
      rw [c.scrollTo_of_not_mem name (by rw [h.1]; exact List.not_mem_nil)]
      exact h.2

end HomeWidget.Carousel
