import HomeWidget.Definition.Read
import HomeWidget.Proofs.Table

/-!
# The first gap of a document

What a document must have is listed here apart from the walk that looks for it. A site is a property that a part of the
document must hold, and a part is known by its value and by the path that leads to it from the root. The sites stand in
the order in which they are met; what is not of the shape that holds further sites has none.

The walk is brought to this list from the inside out: each check is the search for the first site of its part that is
not filled. Nothing is carried from one part to the next, so that the reported path is the one of the site itself,
whatever was looked at before.

Main results: `check_eq_firstGap`, `placed_of_mem_sites`, `write_concat_field`, `write_concat_index`,
`check_reports_first_gap`.
-/
namespace HomeWidget.Required

/-! ## §1. Parts of a document -/

/-- A path leads from the root of a document to a value: into a member of an object by its name, and into an item of an
array by its place. -/
inductive Leads (root : Json) : Path → Json → Prop where
  | start : Leads root [] root
  | field {path : Path} {members : List (String × Json)} {name : String} {value : Json} :
      Leads root path (.object members) → (name, value) ∈ members → Leads root (path ++ [.field name]) value
  | index {path : Path} {items : List Json} {i : Nat} {value : Json} :
      Leads root path (.array items) → items[i]? = some value → Leads root (path ++ [.index i]) value

/-- A part of a document, and the way to it from the root. -/
structure Part where
  path : Path
  value : Json

namespace Part

/-- The whole document. -/
def whole (root : Json) : Part := ⟨[], root⟩

/-- A member of an object by name. -/
def member? (p : Part) (name : String) : Option Part :=
  (p.value.get? name).map fun value => ⟨p.path ++ [.field name], value⟩

/-- The members of an object, in their order. -/
def members (p : Part) : List Part :=
  (p.value.members?.getD []).map fun (name, value) => ⟨p.path ++ [.field name], value⟩

/-- The items of an array, in their order. -/
def items (p : Part) : List Part :=
  (p.value.items?.getD []).zipIdx.map fun (value, i) => ⟨p.path ++ [.index i], value⟩

/-- The members of the object that a member is; none if it is no object. -/
def membersOf (p : Part) (name : String) : List Part := (p.member? name).elim [] members

/-- The items of the array that a member is; none if it is no array. -/
def itemsOf (p : Part) (name : String) : List Part := (p.member? name).elim [] items

end Part

/-! ## §2. Sites -/

/-- A property that a part of a document must hold. -/
structure Site where
  owner : Part
  field : String
  kind : Kind

/-- The property is there, and it is of its kind. -/
def Site.Filled (s : Site) : Prop := ∃ value ∈ s.owner.value.get? s.field, s.kind.admits value = true

instance (s : Site) : Decidable s.Filled :=
  inferInstanceAs (Decidable (∃ value ∈ s.owner.value.get? s.field, s.kind.admits value = true))

/-- The site of a cell. -/
def cellSites (cell : Part) : List Site := [⟨cell, "width", .number⟩]

/-- The sites of a row and of its cells. -/
def rowSites (row : Part) : List Site := ⟨row, "height", .number⟩ :: (row.itemsOf "cells").flatMap cellSites

/-- The sites in a layer. -/
def layerSites (layer : Part) : List Site := (layer.itemsOf "rows").flatMap rowSites

/-- The site of a colour style. -/
def colorSites (color : Part) : List Site := [⟨color, "color", .string⟩]

/-- The colour styles of a layout. -/
def colorsOf (layout : Part) : List Part := (layout.member? "styles").elim [] (·.membersOf "colors")

/-- The sites of a layout, of its colour styles and of its layers. -/
def layoutSites (layout : Part) : List Site :=
  ⟨layout, "size", .string⟩ :: ⟨layout, "styles", .object⟩ ::
    ((colorsOf layout).flatMap colorSites ++
      ⟨layout, "layers", .array⟩ :: (layout.itemsOf "layers").flatMap layerSites)

/-- The sites of a document, in the order in which they are met. -/
def sites (root : Json) : List Site :=
  ⟨.whole root, "name", .string⟩ :: ⟨.whole root, "data", .object⟩ :: ⟨.whole root, "layouts", .object⟩ ::
    ((Part.whole root).membersOf "layouts").flatMap layoutSites

/-! ## §3. The first site that is not filled -/

/-- What a search reports that goes through sites in their order. -/
def firstGap : List Site → Except Gap Unit
  | [] => .ok ()
  | s :: rest => if s.Filled then firstGap rest else .error ⟨s.field, s.owner.path⟩

/-- The search passes over a site that is filled. -/
theorem firstGap_filled {s : Site} (h : s.Filled) (rest : List Site) : firstGap (s :: rest) = firstGap rest :=
  if_pos h

/-- The search ends at a site that is not filled. -/
theorem firstGap_open {s : Site} (h : ¬s.Filled) (rest : List Site) :
    firstGap (s :: rest) = .error ⟨s.field, s.owner.path⟩ := if_neg h

/-- Sites behind others are searched if the others are all filled. -/
theorem firstGap_append (before after : List Site) :
    firstGap (before ++ after) = (firstGap before >>= fun _ => firstGap after) := by
  induction before with
  | nil => rfl
  | cons s before ih =>
    rw [List.cons_append]
    by_cases h : s.Filled
    · rw [firstGap_filled h, firstGap_filled h, ih]
    · rw [firstGap_open h, firstGap_open h]
      rfl

/-- The sites of a list of parts are searched part by part, as a loop over the parts does. -/
theorem firstGap_flatMap {α : Type} (xs : List α) (part : α → Part) (sitesOf : Part → List Site) :
    firstGap ((xs.map part).flatMap sitesOf) = xs.forM fun x => firstGap (sitesOf (part x)) := by
  induction xs with
  | nil => rfl
  | cons x xs ih =>
    rw [List.map_cons, List.flatMap_cons, firstGap_append, ih]
    rfl

/-- The search finds nothing just when every site is filled. -/
theorem firstGap_eq_ok_iff {ss : List Site} : firstGap ss = .ok () ↔ ∀ s ∈ ss, s.Filled := by
  induction ss with
  | nil => exact ⟨fun _ s hs => absurd hs List.not_mem_nil, fun _ => rfl⟩
  | cons s ss ih =>
    rw [List.forall_mem_cons]
    by_cases h : s.Filled
    · rw [firstGap_filled h, ih]
      exact ⟨fun hrest => ⟨h, hrest⟩, fun hall => hall.2⟩
    · rw [firstGap_open h]
      constructor
      · intro herror
        cases herror
      · rintro ⟨hs, -⟩
        exact absurd hs h

/-- The search passes over filled sites up to the one that it reports. -/
theorem exists_of_firstGap_eq_error {ss : List Site} {gap : Gap} (h : firstGap ss = .error gap) :
    ∃ before s after, ss = before ++ s :: after ∧ (∀ t ∈ before, t.Filled) ∧ ¬s.Filled
      ∧ gap = ⟨s.field, s.owner.path⟩ := by
  induction ss with
  | nil => cases h
  | cons s ss ih =>
    by_cases hs : s.Filled
    · rw [firstGap_filled hs] at h
      obtain ⟨before, t, after, rfl, hbefore, ht, hgap⟩ := ih h
      exact ⟨s :: before, t, after, rfl, List.forall_mem_cons.2 ⟨hs, hbefore⟩, ht, hgap⟩
    · rw [firstGap_open hs] at h
      exact ⟨[], s, ss, rfl, fun t ht => absurd ht List.not_mem_nil, hs, (Except.error.inj h).symm⟩

/-! ## §4. The walk goes through the sites -/

variable {p : Part} {field : String} {kind : Kind} {sitesOf : Part → List Site}
  {walk : Path → Json → Except Gap Unit}

/-- A property is looked for, and then what the search for the rest does with its value. -/
theorem property_bind {next : Json → Except Gap Unit} {rest : List Site}
    (h : ∀ value, p.value.get? field = some value → next value = firstGap rest) :
    (property p.path p.value field kind >>= next) = firstGap (⟨p, field, kind⟩ :: rest) := by
  unfold property
  cases hvalue : p.value.get? field with
  | none =>
    have hopen : ¬(Site.mk p field kind).Filled := by
      rintro ⟨value, hmem, -⟩
      rw [hvalue] at hmem
      cases hmem
    rw [firstGap_open hopen]
    rfl
  | some value =>
    by_cases hkind : kind.admits value = true
    · rw [firstGap_filled ⟨value, hvalue, hkind⟩, ← h value hvalue]
      simp only [hkind, if_true]
      rfl
    · have hopen : ¬(Site.mk p field kind).Filled := by
        rintro ⟨other, hmem, hother⟩
        rw [hvalue] at hmem
        cases hmem
        exact hkind hother
      rw [firstGap_open hopen]
      simp only [hkind]
      rfl

/-- A property is looked for whose value does not matter, and then the rest. -/
theorem present_bind (rest : List Site) :
    (present p.path p.value field kind >>= fun _ => firstGap rest) = firstGap (⟨p, field, kind⟩ :: rest) := by
  unfold present
  rw [bind_assoc]
  exact property_bind fun _ _ => rfl

theorem present_eq_firstGap : present p.path p.value field kind = firstGap [⟨p, field, kind⟩] := by
  rw [← present_bind]
  exact (bind_pure _).symm

/-- The check of the items of a member goes through the sites of those items, if the check of one goes through the sites
of one. -/
theorem eachItem_eq_firstGap (name : String) (h : ∀ q : Part, walk q.path q.value = firstGap (sitesOf q)) :
    eachItem (p.path ++ [.field name]) (p.value.get? name) walk = firstGap ((p.itemsOf name).flatMap sitesOf) := by
  unfold eachItem Part.itemsOf Part.member?
  cases p.value.get? name with
  | none => rfl
  | some value =>
    -- the path and the item that the check is given are those of the part
    refine Eq.trans ?_ (firstGap_flatMap _ _ _).symm
    exact congrArg (List.forM _) (funext fun (item, i) => h ⟨_, item⟩)

/-- So it is with the members of a member. -/
theorem eachMember_eq_firstGap (name : String) (h : ∀ q : Part, walk q.path q.value = firstGap (sitesOf q)) :
    eachMember (p.path ++ [.field name]) (p.value.get? name) walk
      = firstGap ((p.membersOf name).flatMap sitesOf) := by
  unfold eachMember Part.membersOf Part.member?
  cases p.value.get? name with
  | none => rfl
  | some value =>
    refine Eq.trans ?_ (firstGap_flatMap _ _ _).symm
    exact congrArg (List.forM _) (funext fun (name, member) => h ⟨_, member⟩)

theorem checkCell_eq_firstGap (cell : Part) : checkCell cell.path cell.value = firstGap (cellSites cell) :=
  present_eq_firstGap

/-- The check of a row goes through the height first and then through the cells. -/
theorem checkRow_eq_firstGap (row : Part) : checkRow row.path row.value = firstGap (rowSites row) := by
  unfold checkRow rowSites
  rw [eachItem_eq_firstGap "cells" checkCell_eq_firstGap]
  exact present_bind _

/-- The check of a layer goes through its rows. -/
theorem checkLayer_eq_firstGap (layer : Part) : checkLayer layer.path layer.value = firstGap (layerSites layer) :=
  eachItem_eq_firstGap "rows" checkRow_eq_firstGap

theorem checkColor_eq_firstGap (color : Part) : checkColor color.path color.value = firstGap (colorSites color) :=
  present_eq_firstGap

/-- The check of a layout goes through its size and its styles, then the colours, then the layers. -/
theorem checkLayout_eq_firstGap (layout : Part) :
    checkLayout layout.path layout.value = firstGap (layoutSites layout) := by
  unfold checkLayout layoutSites
  rw [← present_bind]
  refine congrArg (_ >>= ·) (funext fun _ => property_bind fun styles hstyles => ?_)
  -- the colours are looked for in the styles that were found, whose path is one step longer
  have hcolors : colorsOf layout = (Part.mk (layout.path ++ [.field "styles"]) styles).membersOf "colors" := by
    unfold colorsOf Part.member?
    rw [hstyles]
    rfl
  rw [firstGap_append, hcolors, ← eachMember_eq_firstGap "colors" checkColor_eq_firstGap,
    List.append_cons layout.path (.field "styles") [.field "colors"]]
  refine congrArg (_ >>= ·) (funext fun _ => property_bind fun layers hlayers => ?_)
  rw [← hlayers]
  exact eachItem_eq_firstGap "layers" checkLayer_eq_firstGap

/-- **The check is the search for the first site that is not filled.** -/
theorem check_eq_firstGap (root : Json) : check root = firstGap (sites root) := by
  unfold check sites
  rw [← present_bind]
  refine congrArg (_ >>= ·) (funext fun _ => ?_)
  rw [← present_bind]
  refine congrArg (_ >>= ·) (funext fun _ => property_bind (p := .whole root) fun layouts hlayouts => ?_)
  rw [← hlayouts]
  exact eachMember_eq_firstGap (p := .whole root) "layouts" checkLayout_eq_firstGap

/-! ## §5. Where the sites are -/

/-- The properties that some part of a document must hold. -/
def fields : List String := ["name", "data", "layouts", "size", "styles", "layers", "color", "height", "width"]

/-- The path of a site leads to the part that must hold its property. -/
structure Site.Placed (root : Json) (s : Site) : Prop where
  leads : Leads root s.owner.path s.owner.value
  field_mem : s.field ∈ fields

variable {root : Json} {q : Part} {name : String}

/-- The way to a part goes on to a member that is looked up by its name. -/
theorem leads_member? (hp : Leads root p.path p.value) (hq : p.member? name = some q) : Leads root q.path q.value := by
  obtain ⟨value, hvalue, rfl⟩ := Option.map_eq_some_iff.1 hq
  unfold Json.get? at hvalue
  split at hvalue
  next members hmembers =>
    rw [hmembers] at hp
    exact .field hp (Members.mem_of_lookup hvalue)
  next => cases hvalue

/-- The way to a part goes on to every member that is met in turn. -/
theorem leads_members (hp : Leads root p.path p.value) : ∀ q ∈ p.members, Leads root q.path q.value := by
  unfold Part.members Json.members?
  cases hvalue : p.value with
  | object members =>
    rw [hvalue] at hp
    exact List.forall_mem_map.2 fun (name, value) hmem => .field hp hmem
  | _ => exact fun q hq => absurd hq List.not_mem_nil

/-- The way to a part goes on to every item. -/
theorem leads_items (hp : Leads root p.path p.value) : ∀ q ∈ p.items, Leads root q.path q.value := by
  unfold Part.items Json.items?
  cases hvalue : p.value with
  | array items =>
    rw [hvalue] at hp
    exact List.forall_mem_map.2 fun (value, i) hmem => .index hp (List.mem_zipIdx_iff_getElem?.1 hmem)
  | _ => exact fun q hq => absurd hq List.not_mem_nil

/-- Two steps on: the members of a member. -/
theorem leads_membersOf (hp : Leads root p.path p.value) (name : String) :
    ∀ q ∈ p.membersOf name, Leads root q.path q.value := by
  unfold Part.membersOf
  cases hmember : p.member? name with
  | none => exact fun q hq => absurd hq List.not_mem_nil
  | some member => exact leads_members (leads_member? hp hmember)

/-- Two steps on: the items of a member. -/
theorem leads_itemsOf (hp : Leads root p.path p.value) (name : String) :
    ∀ q ∈ p.itemsOf name, Leads root q.path q.value := by
  unfold Part.itemsOf
  cases hmember : p.member? name with
  | none => exact fun q hq => absurd hq List.not_mem_nil
  | some member => exact leads_items (leads_member? hp hmember)

theorem placed_of_leads (hp : Leads root p.path p.value) (hfield : field ∈ fields) : Site.Placed root ⟨p, field, kind⟩ :=
  ⟨hp, hfield⟩

theorem placed_cellSites (hp : Leads root p.path p.value) : ∀ s ∈ cellSites p, s.Placed root := by
  unfold cellSites
  rw [List.forall_mem_singleton]
  exact placed_of_leads hp (by decide)

/-- The sites of a row are placed where the row and its cells are. -/
theorem placed_rowSites (hp : Leads root p.path p.value) : ∀ s ∈ rowSites p, s.Placed root :=
  List.forall_mem_cons.2 ⟨placed_of_leads hp (by decide),
    List.forall_mem_flatMap.2 fun cell hcell => placed_cellSites (leads_itemsOf hp "cells" cell hcell)⟩

/-- The sites in a layer are placed where its rows and their cells are. -/
theorem placed_layerSites (hp : Leads root p.path p.value) : ∀ s ∈ layerSites p, s.Placed root :=
  List.forall_mem_flatMap.2 fun row hrow => placed_rowSites (leads_itemsOf hp "rows" row hrow)

theorem placed_colorSites (hp : Leads root p.path p.value) : ∀ s ∈ colorSites p, s.Placed root := by
  unfold colorSites
  rw [List.forall_mem_singleton]
  exact placed_of_leads hp (by decide)

/-- The colour styles of a layout are three steps below it. -/
theorem leads_colorsOf (hp : Leads root p.path p.value) : ∀ q ∈ colorsOf p, Leads root q.path q.value := by
  unfold colorsOf
  cases hstyles : p.member? "styles" with
  | none => exact fun q hq => absurd hq List.not_mem_nil
  | some styles => exact leads_membersOf (leads_member? hp hstyles) "colors"

/-- The sites of a layout are placed in it, whichever of its parts they are of. -/
theorem placed_layoutSites (hp : Leads root p.path p.value) : ∀ s ∈ layoutSites p, s.Placed root := by
  have hcolors : ∀ s ∈ (colorsOf p).flatMap colorSites, s.Placed root :=
    List.forall_mem_flatMap.2 fun color hcolor => placed_colorSites (leads_colorsOf hp color hcolor)
  have hlayers : ∀ s ∈ (p.itemsOf "layers").flatMap layerSites, s.Placed root :=
    List.forall_mem_flatMap.2 fun layer hlayer => placed_layerSites (leads_itemsOf hp "layers" layer hlayer)
  unfold layoutSites
  rw [List.forall_mem_cons, List.forall_mem_cons, List.forall_mem_append, List.forall_mem_cons]
  exact ⟨placed_of_leads hp (by decide), placed_of_leads hp (by decide), hcolors, placed_of_leads hp (by decide), hlayers⟩

/-- **Every site of a document is placed in it**: its path leads to the part that must hold its property. -/
theorem placed_of_mem_sites (root : Json) : ∀ s ∈ sites root, s.Placed root := by
  have hlayouts : ∀ s ∈ ((Part.whole root).membersOf "layouts").flatMap layoutSites, s.Placed root :=
    List.forall_mem_flatMap.2 fun layout hlayout => placed_layoutSites (leads_membersOf .start "layouts" layout hlayout)
  unfold sites
  rw [List.forall_mem_cons, List.forall_mem_cons, List.forall_mem_cons]
  exact ⟨placed_of_leads .start (by decide), placed_of_leads .start (by decide), placed_of_leads .start (by decide), hlayouts⟩

/-! ## §6. The text of a path -/

/-- After the first step every further one is written behind the text so far. -/
theorem write_concat {path : Path} (h : path ≠ []) (s : Step) : Path.write (path ++ [s]) = path.write ++ s.write := by
  have hrest (rest : Path) :
      String.join ((rest ++ [s]).map Step.write) = String.join (rest.map Step.write) ++ s.write := by
    rw [List.map_append, String.join_append, List.map_singleton, String.join_cons, String.join_nil,
      String.append_empty]
  cases path with
  | nil => exact absurd rfl h
  | cons first rest =>
    cases first with
    | field name => exact (congrArg (name ++ ·) (hrest rest)).trans String.append_assoc.symm
    | index i => exact (congrArg (Step.write (.index i) ++ ·) (hrest rest)).trans String.append_assoc.symm

/-- A name is set off with a point from what leads to its object, unless nothing does. -/
theorem write_concat_field (path : Path) (name : String) :
    Path.write (path ++ [.field name]) = if path = [] then name else path.write ++ ("." ++ name) := by
  by_cases h : path = []
  · subst h
    exact String.append_empty
  · rw [if_neg h]
    exact write_concat h _

/-- An index stands in brackets, whatever leads to its array. -/
theorem write_concat_index (path : Path) (i : Nat) :
    Path.write (path ++ [.index i]) = path.write ++ ("[" ++ toString i ++ "]") := by
  by_cases h : path = []
  · subst h
    exact String.append_empty.trans String.empty_append.symm
  · exact write_concat h _

/-! ## §7. What is reported -/

/-- The check passes just when every site is filled. -/
theorem check_eq_ok_iff (root : Json) : check root = .ok () ↔ ∀ s ∈ sites root, s.Filled := by
  rw [check_eq_firstGap, firstGap_eq_ok_iff]

/-- The check goes past filled sites up to the one that it reports. -/
theorem exists_of_check_eq_error {root : Json} {gap : Gap} (h : check root = .error gap) :
    ∃ before s after, sites root = before ++ s :: after ∧ (∀ t ∈ before, t.Filled) ∧ ¬s.Filled ∧ s.Placed root
      ∧ gap = ⟨s.field, s.owner.path⟩ := by
  rw [check_eq_firstGap] at h
  obtain ⟨before, s, after, hsites, hbefore, hs, hgap⟩ := exists_of_firstGap_eq_error h
  have hmem : s ∈ sites root := by
    rw [hsites]
    exact List.mem_append_right _ List.mem_cons_self
  exact ⟨before, s, after, hsites, hbefore, hs, placed_of_mem_sites root s hmem, hgap⟩

/-- The object that should hold a property is named unless it is the root. -/
theorem parent?_eq (gap : Gap) : gap.parent? = if gap.path = [] then none else some gap.path.write := by
  obtain ⟨field, path⟩ := gap
  cases path <;> rfl

/-- Reading a document ends with the gap that the check finds. -/
theorem read_of_gap {members : List (String × Json)} {gap : Gap} (h : check (.object members) = .error gap) :
    Draft.read (.object members) = .error (.ofGap gap) := by
  unfold Draft.read
  rw [h]
  rfl

/--
**The first gap of a document is reported, with the path of the part that should hold the property.** Take any object.

The check passes just when every site of the document is filled. Otherwise the sites before some site are filled and
that one is not; the check reports its property and its path, which leads from the root to the part that should hold
the property; and reading the document fails with the property and with the written path, which is left out at the root.
-/
theorem check_reports_first_gap (members : List (String × Json)) :
    let root := Json.object members
    (check root = .ok () ↔ ∀ s ∈ sites root, s.Filled)
      ∧ (check root = .ok () ∨ ∃ before s after, sites root = before ++ s :: after
          ∧ (∀ t ∈ before, t.Filled) ∧ ¬s.Filled
          ∧ Leads root s.owner.path s.owner.value
          ∧ check root = .error ⟨s.field, s.owner.path⟩
          ∧ Draft.read root = .error (.missingProperty s.field
              (if s.owner.path = [] then none else some s.owner.path.write))) := by
  intro root
  refine ⟨check_eq_ok_iff root, ?_⟩
  cases hcheck : check root with
  | ok u => exact Or.inl rfl
  | error gap =>
    obtain ⟨before, s, after, hsites, hbefore, hs, hplaced, rfl⟩ := exists_of_check_eq_error hcheck
    refine Or.inr ⟨before, s, after, hsites, hbefore, hs, hplaced.leads, rfl, ?_⟩
    rw [read_of_gap hcheck, DefinitionError.ofGap, parent?_eq]

/-- What was whole before a gap, in another layout and in a row above, leaves no trace in its path. -/
example :
    let row (cells : List Json) : Json := .object [("height", .ofNat 6), ("cells", .array cells)]
    let cell : Json := .object [("width", .ofNat 4)]
    let layout (rows : List Json) : Json :=
      .object [("size", .string "small"), ("layers", .array [.object [("rows", .array rows)]]),
        ("styles", .object [("colors", .object [("ink", .object [("color", .string "#000000")])])])]
    let document : Json :=
      .object [("name", .string ""), ("data", .object []),
        ("layouts", .object [("a", layout [row [cell]]), ("b", layout [row [cell, cell], row [cell, .object []]])])]
    (check document).toOption = none
      ∧ ((sites document).find? fun s => ¬s.Filled).map (fun s => (s.field, s.owner.path.write))
        = some ("width", "layouts.b.layers[0].rows[1].cells[1]") := by
  decide +kernel

end HomeWidget.Required
