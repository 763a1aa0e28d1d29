import HomeWidget.Proofs.Carousel.Band

/-!
# Dragging commits to nothing

A drag shows where the band would go. A throw counts from where the band last rested and a jump goes to a page, both
without a look at where the band was dragged to, and both bring it to rest. So two bands that differ in their drag
positions alone commit to the same pages, in the same positions, and go on to differ in nothing else; and a run without
its drags commits to what the whole run does. All this is of scalars as such: no arithmetic is needed for it.

Main results: `SameRest.commit?_eq`, `SameRest.move`, `SameRest.commits_withoutDrags`, `dragging_commits_nothing`.
-/
namespace HomeWidget.Carousel

variable {α : Type}

/-! ## §1. Moves that commit -/

/-- Does a move commit the band? All but drags do. -/
def Move.commits : Move α → Bool
  | dragChanged _ => false
  | dragEnded _ => true
  | scrollTo _ => true

/-- A move that does not commit is a drag. -/
theorem Move.exists_drag {m : Move α} (h : ¬m.commits = true) : ∃ dx, m = .dragChanged dx := by
  cases m with
  | dragChanged dx => exact ⟨dx, rfl⟩
  | dragEnded dx => exact absurd rfl h
  | scrollTo name => exact absurd rfl h

/-- The moves of a run without its drags. -/
def withoutDrags (moves : List (Move α)) : List (Move α) := moves.filter Move.commits

theorem withoutDrags_drag (dx : α) (rest : List (Move α)) :
    withoutDrags (.dragChanged dx :: rest) = withoutDrags rest := rfl

theorem withoutDrags_commit {m : Move α} (h : m.commits = true) (rest : List (Move α)) :
    withoutDrags (m :: rest) = m :: withoutDrags rest := List.filter_cons_of_pos h

/-- What is to be seen of a move that commits. -/
structure Commit (α : Type) where
  /-- The page that the move reached, if it reached one. -/
  page : Option ℕ
  /-- The drag and the snap position right after it; nothing after a jump that found no page and left the band alone. -/
  rest : Option (α × α)

/-- The bands differ at most in where they are dragged to. -/
structure SameRest (c d : Carousel α) : Prop where
  pages : c.pages = d.pages
  options : c.options = d.options
  snap : c.snap = d.snap

theorem SameRest.refl (c : Carousel α) : SameRest c c := ⟨rfl, rfl, rfl⟩

theorem SameRest.trans {c d e : Carousel α} (h : SameRest c d) (h' : SameRest d e) : SameRest c e :=
  ⟨h.pages.trans h'.pages, h.options.trans h'.options, h.snap.trans h'.snap⟩

variable [Scalar α]

/-- What is to be seen of a move; of a drag, nothing. -/
def commit? (c : Carousel α) (m : Move α) : Option (Commit α) :=
  let after := (c.move m).1
  let page := (c.move m).2
  match m with
  | .dragChanged _ => none
  | .dragEnded _ => some ⟨page, some (after.drag, after.snap)⟩
  | .scrollTo _ => some ⟨page, page.map fun _ => (after.drag, after.snap)⟩

/-- The commits of a run, in turn. -/
def commits (c : Carousel α) : List (Move α) → List (Commit α)
  | [] => []
  | m :: rest => (c.commit? m).toList ++ (c.move m).1.commits rest

/-! ## §2. Bands that rest in the same place -/

namespace SameRest

variable {c d : Carousel α}

/-- A drag changes nothing but the drag position. -/
theorem dragChanged (c : Carousel α) (dx : α) : SameRest (c.dragChanged dx) c := ⟨rfl, rfl, rfl⟩

/-- **A throw does not depend on the drag position**: neither the page that it reaches nor the band after it. -/
theorem dragEnded_eq (h : SameRest c d) (dx : α) : c.dragEnded dx = d.dragEnded dx := by
  obtain ⟨pages, drag, snap, options⟩ := c
  obtain ⟨pages', drag', snap', options'⟩ := d
  obtain ⟨rfl, rfl, rfl⟩ : pages = pages' ∧ options = options' ∧ snap = snap' := ⟨h.pages, h.options, h.snap⟩
  -- the drag position is written before it is read
  rfl

/-- **Neither does a jump that finds its page.** -/
theorem scrollTo_eq (h : SameRest c d) {name : String} {i : ℕ}
    (hi : c.pages.findIdx? (·.name == name) = some i) : c.scrollTo name = d.scrollTo name := by
  have hi' : d.pages.findIdx? (·.name == name) = some i := h.pages ▸ hi
  rw [c.scrollTo_of_findIdx? name hi, d.scrollTo_of_findIdx? name hi', h.pages, h.options]

/-- Two moves that commit end alike, or else find no page and leave both bands as they are. -/
theorem move_cases (h : SameRest c d) {m : Move α} (hm : m.commits = true) :
    c.move m = d.move m ∨ ∃ name, m = .scrollTo name ∧ c.move m = (c, none) ∧ d.move m = (d, none) := by
  cases m with
  | dragChanged dx => cases hm
  | dragEnded dx => exact Or.inl (h.dragEnded_eq dx)
  | scrollTo name =>
    cases hfind : c.pages.findIdx? (·.name == name) with
    | some i => exact Or.inl (h.scrollTo_eq hfind)
    | none => exact Or.inr ⟨name, rfl, c.scrollTo_of_none name hfind, d.scrollTo_of_none name (h.pages ▸ hfind)⟩

/-- What is seen of a move that both make is the same. -/
theorem commit?_eq (h : SameRest c d) {m : Move α} (hm : m.commits = true) : c.commit? m = d.commit? m := by
  rcases h.move_cases hm with heq | ⟨name, rfl, hc, hd⟩
  · unfold commit?
    rw [heq]
  · unfold commit?
    rw [hc, hd]
    rfl

/-- **Bands that rest in the same place still do so after a move that both make.** -/
theorem move (h : SameRest c d) {m : Move α} (hm : m.commits = true) : SameRest (c.move m).1 (d.move m).1 := by
  rcases h.move_cases hm with heq | ⟨name, rfl, hc, hd⟩
  · rw [heq]
    exact refl _
  · rw [hc, hd]
    exact h

/-! ## §3. Runs without their drags -/

/-- **A run, and the same run without its drags**: from bands that rest in the same place to bands that do. -/
theorem run_withoutDrags (h : SameRest c d) (moves : List (Move α)) :
    SameRest (c.run moves) (d.run (withoutDrags moves)) := by
  induction moves generalizing c d with
  | nil => exact h
  | cons m rest ih =>
    by_cases hm : m.commits = true
    · rw [withoutDrags_commit hm]
      exact ih (h.move hm)
    · obtain ⟨dx, rfl⟩ := Move.exists_drag hm
      rw [withoutDrags_drag]
      exact ih ((dragChanged c dx).trans h)

/-- **Both commit to the same, in turn.** -/
theorem commits_withoutDrags (h : SameRest c d) (moves : List (Move α)) :
    c.commits moves = d.commits (withoutDrags moves) := by
  induction moves generalizing c d with
  | nil => rfl
  | cons m rest ih =>
    by_cases hm : m.commits = true
    · rw [withoutDrags_commit hm]
      show (c.commit? m).toList ++ _ = (d.commit? m).toList ++ _
      rw [h.commit?_eq hm, ih (h.move hm)]
    · obtain ⟨dx, rfl⟩ := Move.exists_drag hm
      rw [withoutDrags_drag]
      exact ih ((dragChanged c dx).trans h)

end SameRest

/-- Every move that commits is seen, and no other. -/
theorem length_commits (c : Carousel α) (moves : List (Move α)) :
    (c.commits moves).length = (withoutDrags moves).length := by
  induction moves generalizing c with
  | nil => rfl
  | cons m rest ih =>
    show ((c.commit? m).toList ++ (c.move m).1.commits rest).length = _
    rw [List.length_append, ih]
    cases m with
    | dragChanged dx => exact Nat.zero_add _
    | dragEnded dx => exact Nat.add_comm _ _
    | scrollTo name => exact Nat.add_comm _ _

/--
**Dragging never affects what a band commits to.** For every band and all moves, with any numbers and names:
* the run without its drags commits to what the whole run does: as often, to the same pages, and with the same drag and
  snap positions right after every throw and after every jump that found its page;
* at every point of the run the band last rested where it did at that point of the run without drags.
-/
theorem dragging_commits_nothing (c : Carousel α) (moves : List (Move α)) :
    c.commits (withoutDrags moves) = c.commits moves
      ∧ (c.commits moves).length = (withoutDrags moves).length
      ∧ ∀ n, (c.run (withoutDrags (moves.take n))).snap = (c.run (moves.take n)).snap := by
  have hsame : SameRest c c := SameRest.refl c
  refine ⟨?_, c.length_commits moves, ?_⟩
  · exact (hsame.commits_withoutDrags moves).symm
  · intro n
    exact (hsame.run_withoutDrags (moves.take n)).snap.symm

end HomeWidget.Carousel
