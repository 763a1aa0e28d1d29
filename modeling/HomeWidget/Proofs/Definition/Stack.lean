import HomeWidget.Definition.Required

/-!
# The walk with one stack

The check gives every part of a document its path as a value. A walk that keeps one path for the whole document does
the same with less copying: it pushes the step into a part before it looks at the part, pops the step afterwards, and
reports whatever the path is at the first gap. Such a walk is written down here, and it is shown to be the check: no
push is left without its pop, save the one of the layouts, after which nothing is looked for.

One judgement carries the proof. A walk follows a check if from every path it ends as the check does there, and gives
the path back when it comes through. It is closed under sequence, under a push with its pop, and under loops, so that
each level of a document takes a few lines.

Main results: `walk_run`, `walk_eq_check`.
-/
namespace HomeWidget.Required

/-! ## §1. Walks -/

/-- A walk carries the path of the part it is at, and stops at the first gap. -/
abbrev Walk (α : Type) : Type := StateT Path (Except Gap) α

namespace Walk

/-- Steps into a part. -/
def push (s : Step) : Walk Unit := modify fun path => path ++ [s]

/-- Takes the last step back. -/
def pop : Walk Unit := modify List.dropLast

/-- A property of the part that the walk is at; if there is none, the path so far is reported. -/
def demand (owner : Json) (field : String) (kind : Kind) : Walk Json := do
  property (← get) owner field kind

/-- Looks at a part: the step into it is pushed before and popped after. -/
def inside (s : Step) (look : Walk Unit) : Walk Unit := do
  push s
  look
  pop

/-- Looks at every item of an array. -/
def items (values : List Json) (look : Json → Walk Unit) : Walk Unit :=
  values.zipIdx.forM fun (item, i) => inside (.index i) (look item)

/-- Looks at every member of an object. -/
def members (values : List (String × Json)) (look : Json → Walk Unit) : Walk Unit :=
  values.forM fun (name, member) => inside (.field name) (look member)

/-- Looks at the items of a member, if it is an array; nothing is pushed otherwise. -/
def itemsOf (owner : Json) (name : String) (look : Json → Walk Unit) : Walk Unit :=
  match (owner.get? name).bind Json.items? with
  | some values => inside (.field name) (items values look)
  | none => pure ()

/-- A cell must have a width. -/
def cell (c : Json) : Walk Unit := do
  let _ ← demand c "width" .number
  pure ()

/-- A row must have a height, and its cells must be whole. -/
def row (r : Json) : Walk Unit := do
  let _ ← demand r "height" .number
  itemsOf r "cells" cell

/-- The rows of a layer must be whole. -/
def layer (l : Json) : Walk Unit := itemsOf l "rows" row

/-- A colour style must have a colour. -/
def color (c : Json) : Walk Unit := do
  let _ ← demand c "color" .string
  pure ()

/-- The colours among the styles of a layout, two steps below it. -/
def colors (styles : Json) : Walk Unit :=
  match (styles.get? "colors").bind Json.members? with
  | some values => inside (.field "styles") (inside (.field "colors") (members values color))
  | none => pure ()

/-- A layout must have a size, styles with whole colours, and whole layers. -/
def layout (l : Json) : Walk Unit := do
  let _ ← demand l "size" .string
  let styles ← demand l "styles" .object
  colors styles
  let layers ← demand l "layers" .array
  inside (.field "layers") (items (layers.items?.getD []) layer)

end Walk

open Walk

/-- The walk over a whole document. The step into the layouts is not taken back: nothing comes after them. -/
def walk (root : Json) : Walk Unit := do
  let _ ← demand root "name" .string
  let _ ← demand root "data" .object
  let layouts ← demand root "layouts" .object
  push (.field "layouts")
  members (layouts.members?.getD []) layout

/-! ## §2. A walk that follows a check -/

/-- From every path the walk ends as the check does there, and it gives the path back when it comes through. -/
def Walk.Follows {α : Type} (w : Walk α) (check : Path → Except Gap α) : Prop :=
  ∀ path, w.run path = (fun a => (a, path)) <$> check path

namespace Walk

variable {α β : Type} {w : Walk α} {c : Path → Except Gap α}

/-- Where the walk comes through, the path is the one it started from. -/
theorem Follows.restores (h : Follows w c) {path path' : Path} {a : α} (hrun : w.run path = .ok (a, path')) :
    path' = path ∧ c path = .ok a := by
  rw [h path] at hrun
  cases hc : c path with
  | error gap =>
    rw [hc] at hrun
    cases hrun
  | ok b =>
    rw [hc] at hrun
    cases hrun
    exact ⟨rfl, rfl⟩

/-- Doing nothing follows the check that passes everything. -/
theorem follows_pure (a : α) : Follows (pure a) fun _ => .ok a := fun _ => rfl

/-- A property is looked for with the path of the stack. -/
theorem follows_demand (owner : Json) (field : String) (kind : Kind) :
    Follows (demand owner field kind) fun path => property path owner field kind := by
  intro path
  change (property path owner field kind >>= fun a => pure (a, path))
    = (fun a => (a, path)) <$> property path owner field kind
  cases property path owner field kind <;> rfl

/-- What comes after a walk starts with the result of the check, where the walk did. -/
theorem Follows.run_bind (hw : Follows w c) (next : α → Walk β) (path : Path) :
    (w >>= next).run path = c path >>= fun a => (next a).run path := by
  rw [StateT.run_bind, hw path, bind_map_left]

/-- One walk after another follows one check after the other. -/
theorem Follows.bind {next : α → Walk β} {check : α → Path → Except Gap β} (hw : Follows w c)
    (hnext : ∀ a, Follows (next a) (check a)) :
    Follows (w >>= next) fun path => c path >>= fun a => check a path := by
  intro path
  rw [hw.run_bind, map_bind]
  exact congrArg (c path >>= ·) (funext fun a => hnext a path)

/-- That a property is there, and nothing else. -/
theorem follows_present (owner : Json) (field : String) (kind : Kind) :
    Follows (demand owner field kind >>= fun _ => pure ()) fun path => present path owner field kind :=
  (follows_demand owner field kind).bind fun _ => follows_pure ()

/-- The walk inside a part follows the check of the part, one step further on; the pop undoes the push. -/
theorem Follows.inside {look : Walk Unit} {check : Path → Except Gap Unit} (h : Follows look check) (s : Step) :
    Follows (inside s look) fun path => check (path ++ [s]) := by
  intro path
  change (look.run (path ++ [s]) >>= fun r => pop.run r.2) = (fun u => (u, path)) <$> check (path ++ [s])
  rw [h (path ++ [s])]
  cases check (path ++ [s]) with
  | error gap => rfl
  | ok u => exact congrArg (fun back => Except.ok ((), back)) List.dropLast_concat

/-- A loop of walks follows the loop of checks, by induction on what is looked at: each round gives the path back to
the next. -/
theorem Follows.forM {ι : Type} {look : ι → Walk Unit} {check : ι → Path → Except Gap Unit}
    (h : ∀ i, Follows (look i) (check i)) (xs : List ι) :
    Follows (xs.forM look) fun path => xs.forM fun i => check i path := by
  induction xs with
  | nil => exact follows_pure ()
  | cons x xs ih => exact (h x).bind fun _ => ih

variable {look : Json → Walk Unit} {check : Path → Json → Except Gap Unit}

/-- The items of an array. -/
theorem follows_items (h : ∀ value, Follows (look value) fun path => check path value) (values : List Json) :
    Follows (items values look) fun path => eachItem path (some (.array values)) check :=
  Follows.forM (fun (item, i) => (h item).inside (.index i)) values.zipIdx

/-- The members of an object. -/
theorem follows_members (h : ∀ value, Follows (look value) fun path => check path value)
    (values : List (String × Json)) :
    Follows (members values look) fun path => eachMember path (some (.object values)) check :=
  Follows.forM (fun (name, member) => (h member).inside (.field name)) values

/-- A walk that follows a check follows any check with the same results. -/
theorem Follows.of_eq {d : Path → Except Gap α} (h : Follows w c) (heq : ∀ path, c path = d path) : Follows w d :=
  fun path => heq path ▸ h path

/-- Only the items of a value are checked, whatever else the value is. -/
theorem eachItem_of_items {value : Option Json} {found : Option (List Json)} (h : value.bind Json.items? = found)
    (path : Path) : eachItem path value check = eachItem path (found.map .array) check := by
  subst h
  unfold eachItem
  cases value.bind Json.items? <;> rfl

/-- Only the members of a value are checked. -/
theorem eachMember_of_members {value : Option Json} {found : Option (List (String × Json))}
    (h : value.bind Json.members? = found) (path : Path) :
    eachMember path value check = eachMember path (found.map .object) check := by
  subst h
  unfold eachMember
  cases value.bind Json.members? <;> rfl

/-- The items of a member, two steps further on; no step is left behind if the member is no array. -/
theorem follows_itemsOf (h : ∀ value, Follows (look value) fun path => check path value) (owner : Json)
    (name : String) :
    Follows (itemsOf owner name look) fun path => eachItem (path ++ [.field name]) (owner.get? name) check := by
  unfold itemsOf
  split
  next values hvalues =>
    have hinside := (follows_items h values).inside (.field name)
    exact hinside.of_eq fun path => (eachItem_of_items hvalues (path ++ [.field name])).symm
  next hnone =>
    refine (follows_pure ()).of_eq fun path => ?_
    rw [eachItem_of_items hnone]
    rfl

/-! ## §3. Each level of a document -/

/-- A cell. -/
theorem follows_cell (c : Json) : Follows (cell c) fun path => checkCell path c :=
  follows_present c "width" .number

/-- A row: the height with the path of the row, the cells with their own. -/
theorem follows_row (r : Json) : Follows (row r) fun path => checkRow path r := by
  have hwalk := (follows_demand r "height" .number).bind fun _ => follows_itemsOf follows_cell r "cells"
  refine hwalk.of_eq fun path => ?_
  unfold checkRow present
  rw [bind_assoc]
  rfl

/-- A layer. -/
theorem follows_layer (l : Json) : Follows (layer l) fun path => checkLayer path l :=
  follows_itemsOf follows_row l "rows"

/-- A colour style. -/
theorem follows_color (c : Json) : Follows (color c) fun path => checkColor path c :=
  follows_present c "color" .string

/-- The colours of a layout: both steps are taken back, or neither was taken. -/
theorem follows_colors (styles : Json) :
    Follows (colors styles) fun path =>
      eachMember (path ++ [.field "styles", .field "colors"]) (styles.get? "colors") checkColor := by
  unfold colors
  split
  next values hvalues =>
    have hinside := ((follows_members follows_color values).inside (.field "colors")).inside (.field "styles")
    refine hinside.of_eq fun path => ?_
    rw [List.append_cons path (.field "styles") [.field "colors"]]
    exact (eachMember_of_members hvalues _).symm
  next hnone => exact (follows_pure ()).of_eq fun path => (eachMember_of_members hnone _).symm

/-- A layout: what it must have itself is looked for between walks that give its path back. -/
theorem follows_layout (l : Json) : Follows (layout l) fun path => checkLayout path l := by
  have hlayers (layers : Json) := (follows_items follows_layer (layers.items?.getD [])).inside (.field "layers")
  have hstyles (styles : Json) := (follows_colors styles).bind fun _ => (follows_demand l "layers" .array).bind hlayers
  have hwalk := (follows_demand l "size" .string).bind fun _ => (follows_demand l "styles" .object).bind hstyles
  refine hwalk.of_eq fun path => ?_
  unfold checkLayout present
  rw [bind_assoc]
  rfl

/-- A layout without a gap gives the path back as it was, so that the next layout is looked at from the same place. -/
theorem layout_restores {l : Json} {path path' : Path} (h : (layout l).run path = .ok ((), path')) : path' = path :=
  ((follows_layout l).restores h).1

end Walk

/-! ## §4. The whole walk -/

/-- **The walk with one stack is the check.** It comes through just when the check does, with the step into the layouts
left on the stack and no other, and it reports the gap that the check reports. -/
theorem walk_run (root : Json) :
    (walk root).run [] = (fun _ => ((), [.field "layouts"])) <$> check root := by
  have hlayouts (layouts : Json) : (do push (.field "layouts"); members (layouts.members?.getD []) layout).run []
      = (fun _ => ((), [.field "layouts"])) <$> eachMember [.field "layouts"] (some layouts) checkLayout :=
    follows_members follows_layout (layouts.members?.getD []) [.field "layouts"]
  unfold walk check present
  simp only [(follows_demand root _ _).run_bind, hlayouts, bind_assoc, pure_bind, map_bind]

/-- What the walk ends with is what the check ends with. -/
theorem walk_eq_check (root : Json) : (walk root).run' [] = check root := by
  rw [StateT.run'_eq, walk_run, Functor.map_map]
  exact id_map _

end HomeWidget.Required
