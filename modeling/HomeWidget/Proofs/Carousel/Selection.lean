import HomeWidget.Proofs.Carousel.Band

/-!
# The page that is selected

The band of pages with exact positions. As far as the band can be dragged, distances are shorter than half their period,
so that no page is nearer the other way round. The current page is then the first of those nearest to the band, which
is the page itself wherever the band rests on one.

Main results: `distance_eq`, `currentItem?_eq_some_iff`, `selects_nearest`.
-/
namespace HomeWidget.Carousel

open Scalar

/-- Rationals stand for themselves. -/
def rationals (n : ℕ) : Reading ℚ n where
  reads x q := x = q
  lt_iff := by
    rintro x y p q rfl rfl
    exact Iff.rfl
  between {x} _ _ _ _ _ _ _ _ _ := ⟨x, rfl⟩
  whole {x} _ h := ⟨nearest x, by rw [← h, round_eq]⟩
  page _ := rfl
  zero := zero_eq
  first := by rw [half_eq]
  last := by
    rw [half_eq]
    rfl
  lastPage := by
    rw [one_eq]
    rfl

/-! ## §1. Distances -/

/-- Within half a period the remainder is the position itself. -/
theorem signedRemainder_of_lt {x m : ℚ} (h : 2 * |x| < m) : signedRemainder x m = x := by
  have hm : 0 < m := lt_of_le_of_lt (by positivity) h
  have hzero : isZero m = false := Bool.eq_false_iff.2 (mt isZero_iff.1 hm.ne')
  have hpart : |x / m| < 1 / 2 := by
    rw [abs_div, abs_of_pos hm, div_lt_iff₀ hm]
    linarith
  unfold signedRemainder
  rw [hzero, roundEven_of_lt_half hpart, mul_zero, sub_zero]
  rfl

variable {n : ℕ} {c : Carousel ℚ}

/-- **The period of distances is never reached.** -/
theorem distance_eq (h : InBand (rationals n) c) (hwrap : 2 ≤ c.options.wrapFactor) {i : ℕ} (hi : i < n) :
    c.distance i = c.drag - i := by
  obtain ⟨q, hdrag, hlow, hhigh⟩ := h.drag
  have hdrag : c.drag = q := hdrag
  have hpage : (i : ℚ) + 1 ≤ n := by exact_mod_cast hi
  have hfirst : (0 : ℚ) ≤ i := Nat.cast_nonneg i
  have hcount : c.count = n := h.count_eq
  have hnear : |c.drag - i| < n := by
    rw [hdrag, abs_lt]
    constructor <;> linarith
  refine signedRemainder_of_lt ?_
  show 2 * |c.drag - i| < c.count * c.options.wrapFactor
  rw [hcount]
  have hn : (0 : ℚ) < n := lt_of_le_of_lt (abs_nonneg _) hnear
  nlinarith

/-! ## §2. The current page -/

/-- Page `k` is the first of those among `n` that are nearest. -/
structure FirstNearest (distance : ℕ → ℚ) (n k : ℕ) : Prop where
  lt : k < n
  le : ∀ i < n, |distance k| ≤ |distance i|
  first : ∀ i < k, |distance k| < |distance i|

/-- Only one page is the first of the nearest. -/
theorem FirstNearest.unique {distance : ℕ → ℚ} {k l : ℕ} (hk : FirstNearest distance n k)
    (hl : FirstNearest distance n l) : k = l := by
  rcases lt_trichotomy k l with h | h | h
  · exact absurd (hl.first k h) (not_lt.2 (hk.le l hl.lt))
  · exact h
  · exact absurd (hk.first l h) (not_lt.2 (hl.le k hk.lt))

theorem FirstNearest.congr {distance other : ℕ → ℚ} {k : ℕ} (h : FirstNearest distance n k)
    (hsame : ∀ i < n, distance i = other i) : FirstNearest other n k where
  lt := h.lt
  le i hi := by
    rw [← hsame k h.lt, ← hsame i hi]
    exact h.le i hi
  first i hi := by
    rw [← hsame k h.lt, ← hsame i (hi.trans h.lt)]
    exact h.first i hi

/-- One more page is the nearest only if it is strictly nearer than the first nearest of those before. -/
theorem FirstNearest.step {distance : ℕ → ℚ} {k : ℕ} (h : FirstNearest distance n k) :
    FirstNearest distance (n + 1) (if |distance n| < |distance k| then n else k) := by
  split
  next hlt =>
    refine ⟨Nat.lt_succ_self n, fun i hi => ?_, fun i hi => hlt.trans_le (h.le i hi)⟩
    rcases Nat.lt_succ_iff_lt_or_eq.1 hi with hi | rfl
    · exact hlt.le.trans (h.le i hi)
    · exact le_rfl
  next hle =>
    refine ⟨Nat.lt_succ_of_lt h.lt, fun i hi => ?_, h.first⟩
    rcases Nat.lt_succ_iff_lt_or_eq.1 hi with hi | rfl
    · exact h.le i hi
    · exact not_lt.1 hle

/-- The pages up to one are searched, and the first nearest of them is kept with its distance. -/
theorem foldl_nearer (c : Carousel ℚ) (n : ℕ) :
    ∃ k, (List.range (n + 1)).foldl c.nearer none = some (k, |c.distance k|) ∧ FirstNearest c.distance (n + 1) k := by
  induction n with
  | zero =>
    refine ⟨0, ?_, Nat.one_pos, fun i hi => ?_, fun i hi => absurd hi (Nat.not_lt_zero i)⟩
    · show some (0, Scalar.abs (c.distance 0)) = _
      rw [abs_eq_abs]
    · rw [Nat.lt_one_iff.1 hi]
  | succ n ih =>
    obtain ⟨k, hfold, hk⟩ := ih
    refine ⟨_, ?_, hk.step⟩
    rw [List.range_succ, List.foldl_append, hfold]
    show (if Scalar.abs (c.distance (n + 1)) < |c.distance k| then some (n + 1, Scalar.abs (c.distance (n + 1)))
      else some (k, |c.distance k|)) = _
    rw [abs_eq_abs]
    split <;> rfl

/-- **The current page is the first of those nearest to the band**, and there is one unless there are no pages. -/
theorem currentItem?_eq_some_iff {k : ℕ} : c.currentItem? = some k ↔ FirstNearest c.distance c.pages.length k := by
  unfold currentItem?
  cases hlength : c.pages.length with
  | zero => exact ⟨nofun, fun h => absurd h.lt (Nat.not_lt_zero k)⟩
  | succ n =>
    obtain ⟨l, hfold, hl⟩ := foldl_nearer c n
    rw [hfold]
    show some l = some k ↔ _
    rw [Option.some.injEq]
    exact ⟨fun h => h ▸ hl, fun h => hl.unique h⟩

theorem exists_currentItem? (h : c.pages ≠ []) : ∃ k, c.currentItem? = some k := by
  obtain ⟨n, hlength⟩ := Nat.exists_eq_succ_of_ne_zero (List.length_pos_iff.2 h).ne'
  obtain ⟨k, -, hk⟩ := foldl_nearer c n
  refine ⟨k, currentItem?_eq_some_iff.2 ?_⟩
  rw [hlength]
  exact hk

/-- **Where the band rests on a page, this page is the current one.** -/
theorem currentItem?_of_drag (h : InBand (rationals n) c) (hwrap : 2 ≤ c.options.wrapFactor) {k : ℕ} (hk : k < n)
    (hdrag : c.drag = k) : c.currentItem? = some k := by
  have hself : |(k : ℚ) - k| = 0 := by rw [sub_self, abs_zero]
  have hplain : FirstNearest (fun i => (k : ℚ) - i) n k := by
    refine ⟨hk, fun i _ => ?_, fun i hi => ?_⟩
    · rw [hself]
      exact abs_nonneg _
    · rw [hself, abs_pos, sub_ne_zero]
      exact Nat.cast_injective.ne hi.ne'
  rw [currentItem?_eq_some_iff, h.length]
  refine hplain.congr fun i hi => ?_
  rw [distance_eq h hwrap hi, hdrag]

/-- The nearer a page, the closer it is to the viewer. -/
theorem zOrder_le {i k : ℕ} (h : |c.distance k| ≤ |c.distance i|) : (c.visual i).zOrder ≤ (c.visual k).zOrder := by
  unfold visual
  dsimp only
  have hslope : (0.6 : ℚ) = 3 / 5 := by norm_num
  rw [abs_eq_abs, abs_eq_abs, hslope]
  linarith

/-! ## §3. Where a throw and a jump end -/

/-- Bounds that are whole keep a whole position whole. -/
theorem min_max_intCast (z : ℤ) (n : ℕ) : min (max (z : ℚ) 0) (n - 1) = ((min (max z 0) (n - 1) : ℤ) : ℚ) := by
  push_cast
  rfl

/-- **A throw ends on the page nearest to where it reaches**, within the pages. -/
theorem dragEnded_eq (h : InBand (rationals n) c) (hwrap : 2 ≤ c.options.wrapFactor) (dx : ℚ) :
    ∃ k : ℕ, (k : ℤ) = min (max (nearest (c.snap - dx / c.options.flingDivisor)) 0) (n - 1)
      ∧ (c.dragEnded dx).1.snap = k ∧ (c.dragEnded dx).2 = some k := by
  obtain ⟨l, hl, -⟩ := h.snap
  obtain ⟨z, hz⟩ : ∃ z, z = nearest (c.snap - dx / c.options.flingDivisor) := ⟨_, rfl⟩
  obtain ⟨k, hk⟩ : ∃ k : ℕ, (k : ℤ) = min (max z 0) (n - 1) := ⟨(min (max z 0) (n - 1)).toNat, by omega⟩
  have hcount : c.count = n := h.count_eq
  have hpage : least (greatest (Scalar.round (c.snap - dx / c.options.flingDivisor)) 0.0) (c.count - 1.0) = (k : ℚ) := by
    rw [least_eq_min, greatest_eq_max, Scalar.round_eq, ← hz, zero_eq, one_eq, hcount, min_max_intCast, ← hk, Int.cast_natCast]
  have hband := inBand_dragEnded h dx
  refine ⟨k, by rw [hk, hz], ?_, ?_⟩
  · rw [c.dragEnded_of_ne_nil dx h.ne_nil]
    exact hpage
  · rw [c.dragEnded_of_ne_nil dx h.ne_nil] at hband ⊢
    refine currentItem?_of_drag hband hwrap (k := k) ?_ hpage
    omega

/-- **A jump ends on the first page of its name**, which is the current one then. -/
theorem scrollTo_eq (h : InBand (rationals n) c) (hwrap : 2 ≤ c.options.wrapFactor) {name : String} {i : ℕ}
    (hi : (c.scrollTo name).2 = some i) :
    (c.pages[i]?.map (·.name) = some name ∧ ∀ j < i, c.pages[j]?.map (·.name) ≠ some name)
      ∧ (c.scrollTo name).1.currentItem? = some i ∧ (c.scrollTo name).1.currentName? = some name := by
  have hfind := c.findIdx?_of_scrollTo name hi
  have hband := inBand_scrollTo h name
  rw [c.scrollTo_of_findIdx? name hfind] at hband ⊢
  obtain ⟨hlt, hname, hfirst⟩ := List.findIdx?_eq_some_iff_getElem.1 hfind
  have hitem : c.pages[i]?.map (·.name) = some name := by
    rw [List.getElem?_eq_getElem hlt]
    exact congrArg some (beq_iff_eq.1 hname)
  have hcurrent : ({ c with drag := Scalar.ofNat i, snap := Scalar.ofNat i } : Carousel ℚ).currentItem? = some i :=
    currentItem?_of_drag hband hwrap (h.length ▸ hlt) rfl
  refine ⟨⟨hitem, fun j hj => ?_⟩, hcurrent, ?_⟩
  · rw [List.getElem?_eq_getElem (hj.trans hlt)]
    intro hsame
    exact hfirst j hj (beq_iff_eq.2 (Option.some.inj hsame))
  · unfold currentName?
    rw [hcurrent]
    exact hitem

/--
**The page that is selected is the one that is nearest.** From the first page of a band whose period is at least twice
its length, after every run of drags, throws and jumps in exact arithmetic:
* distances are the plain ones, the period is never reached;
* the current page is the first of those nearest to the band, and no page is closer to the viewer;
* a throw ends on a page and commits to it: on the one that is the nearest to where the throw reaches, from where the
  band rested, with a half going away from zero, or on the first or the last if that is beyond them;
* a jump that finds a page finds the first of its name, and it is the current one then.
-/
theorem selects_nearest (pages : List Page) (options : Options ℚ) (moves : List (Move ℚ)) (hpages : pages ≠ [])
    (hwrap : 2 ≤ options.wrapFactor) :
    let c := (ofPages pages options).run moves
    (∀ i < pages.length, c.distance i = c.drag - i)
      ∧ (∃ k, c.currentItem? = some k ∧ k < pages.length
          ∧ (∀ i < pages.length, |c.drag - k| ≤ |c.drag - i|) ∧ (∀ i < k, |c.drag - k| < |c.drag - i|)
          ∧ ∀ i < pages.length, (c.visual i).zOrder ≤ (c.visual k).zOrder)
      ∧ (∀ dx, ∃ (k : ℕ) (z : ℤ), (c.dragEnded dx).2 = some k ∧ (c.dragEnded dx).1.snap = k
          ∧ (k : ℤ) = min (max z 0) (pages.length - 1)
          ∧ |c.snap - dx / options.flingDivisor - z| ≤ 1 / 2
          ∧ (|c.snap - dx / options.flingDivisor - z| = 1 / 2 → |c.snap - dx / options.flingDivisor| ≤ |(z : ℚ)|))
      ∧ ∀ name i, (c.scrollTo name).2 = some i →
          (pages[i]?.map (·.name) = some name ∧ ∀ j < i, pages[j]?.map (·.name) ≠ some name)
            ∧ (c.scrollTo name).1.currentItem? = some i ∧ (c.scrollTo name).1.currentName? = some name := by
  intro c
  obtain ⟨hsame, hfixed⟩ : c.pages = pages ∧ c.options = options := run_fixed _ moves
  have hband : InBand (rationals pages.length) c := inBand_run hpages options moves
  rw [← hfixed] at hwrap ⊢
  have hdistance : ∀ i < pages.length, c.distance i = c.drag - i := fun i hi => distance_eq hband hwrap hi
  refine ⟨hdistance, ?_, fun dx => ?_, fun name i hi => ?_⟩
  · obtain ⟨k, hk⟩ := exists_currentItem? (c := c) (by rwa [hsame])
    have hnearest := currentItem?_eq_some_iff.1 hk
    rw [hsame] at hnearest
    obtain ⟨hlt, hle, hfirst⟩ := hnearest.congr hdistance
    exact ⟨k, hk, hlt, hle, hfirst, fun i hi => zOrder_le (hnearest.le i hi)⟩
  · obtain ⟨k, hk, hsnap, hitem⟩ := dragEnded_eq hband hwrap dx
    exact ⟨k, _, hitem, hsnap, hk, abs_sub_nearest_le _, abs_le_abs_nearest _⟩
  · rw [← hsame]
    exact scrollTo_eq hband hwrap hi

/-- Between two pages the first is the current one, and a throw of one and a half pages goes two pages on. -/
theorem selects_nearest_between :
    let pages : List Page := [⟨"a", none⟩, ⟨"b", none⟩, ⟨"c", none⟩]
    let options : Options ℚ := Options.usual
    let c := (ofPages pages options).run [.scrollTo "b", .dragChanged (-100)]
    c.drag = 3 / 2 ∧ c.distance 1 = c.drag - 1 ∧ c.currentItem? = some 1
      ∧ ((c.scrollTo "a").1.dragEnded (-450)).2 = some 2 := by
  intro pages options c
  have hwrap : 2 ≤ options.wrapFactor := by decide +kernel
  refine ⟨by decide +kernel, ?_, by decide +kernel, by decide +kernel⟩
  exact (selects_nearest pages options [.scrollTo "b", .dragChanged (-100)] (by decide) hwrap).1 1 (by decide)

end HomeWidget.Carousel
