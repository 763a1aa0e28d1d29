import HomeWidget.Definition.Required
import HomeWidget.Proofs.Definition.Codec

/-!
# Written definitions have no gaps

The check for required properties finds nothing in a written definition: it walks down to parts that were written, and
each of them has the properties that are looked for.

Main result: `check_eq_ok`.
-/
namespace HomeWidget.Required

open Json

/-! ## §1. Steps of the walk -/

/-- A property of the right kind is found. -/
theorem property_eq {path : Path} {owner value : Json} {field : String} {kind : Kind}
    (h : owner.get? field = some value) (hkind : kind.admits value = true) :
    property path owner field kind = .ok value := by
  unfold property
  rw [h]
  exact if_pos hkind

theorem present_eq {path : Path} {owner value : Json} {field : String} {kind : Kind}
    (h : owner.get? field = some value) (hkind : kind.admits value = true) :
    present path owner field kind = .ok () := by
  unfold present
  rw [property_eq h hkind]
  rfl

/-- A loop comes through if it does at each of its items. -/
theorem forM_eq_ok {β : Type} {items : List β} {check : β → Except Gap Unit} (h : ∀ x ∈ items, check x = .ok ()) :
    items.forM check = .ok () := by
  induction items with
  | nil => rfl
  | cons x items ih =>
    show (check x >>= fun _ => items.forM check) = .ok ()
    rw [h x List.mem_cons_self]
    exact ih fun y hy => h y (List.mem_cons_of_mem _ hy)

/-- The items of a list that is written come through if each does. -/
theorem eachItem_ofList {α : Type} {write : α → Json} {items : List α} {check : Path → Json → Except Gap Unit}
    (h : ∀ x ∈ items, ∀ path, check path (write x) = .ok ()) (path : Path) :
    eachItem path (some (Json.ofList write items)) check = .ok () := by
  apply forM_eq_ok
  -- the place of an item only enters the path, of which the check is free
  rintro ⟨item, i⟩ hmem
  obtain ⟨x, hx, rfl⟩ := List.mem_map.1 (List.fst_mem_of_mem_zipIdx hmem)
  exact h x hx _

/-- So do the items of a list that may be absent. -/
theorem eachItem_option {α : Type} {write : α → Json} {items? : Option (List α)}
    {check : Path → Json → Except Gap Unit} (h : ∀ items ∈ items?, ∀ x ∈ items, ∀ path, check path (write x) = .ok ())
    (path : Path) : eachItem path (items?.map (Json.ofList write)) check = .ok () := by
  cases items? with
  | none => rfl
  | some items => exact eachItem_ofList (h items rfl) path

/-- The values of a table that is written come through if each does. -/
theorem eachMember_toJson {α : Type} {write : α → Json} {t : Table α} {check : Path → Json → Except Gap Unit}
    (h : ∀ m ∈ t.entries, ∀ path, check path (write m.2) = .ok ()) (path : Path) :
    eachMember path (some (t.toJson write)) check = .ok () := by
  apply forM_eq_ok
  rintro ⟨name, member⟩ hmem
  obtain ⟨m, hm, heq⟩ := List.mem_map.1 hmem
  obtain ⟨rfl, rfl⟩ := Prod.mk.inj heq
  exact h m hm _

/-- So do the values of a table that may be absent. -/
theorem eachMember_option {α : Type} {write : α → Json} {t? : Option (Table α)}
    {check : Path → Json → Except Gap Unit} (h : ∀ t ∈ t?, ∀ m ∈ t.entries, ∀ path, check path (write m.2) = .ok ())
    (path : Path) : eachMember path (t?.map (Table.toJson write)) check = .ok () := by
  cases t? with
  | none => rfl
  | some t => exact eachMember_toJson (h t rfl) path

/-! ## §2. Written parts -/

/-- A finite number is written as a number. -/
theorem admits_number {x : Float} (h : x.isFinite = true) : Kind.number.admits (ofFloat x) = true := by
  unfold ofFloat
  rw [if_pos h]
  rfl

/-- A cell is written with its width. -/
theorem checkCell_toJson {c : Cell Float} (h : c.Finite) (path : Path) : checkCell path c.toJson = .ok () :=
  present_eq (by simp [Cell.toJson]) (admits_number h.1)

theorem checkRow_toJson {r : Row Float} (h : r.Finite) (path : Path) : checkRow path r.toJson = .ok () := by
  have hcells : r.toJson.get? "cells" = r.cells.map (Json.ofList Cell.toJson) := by simp [Row.toJson]
  unfold checkRow
  rw [present_eq (show r.toJson.get? "height" = some (ofFloat r.height) by simp [Row.toJson]) (admits_number h.1), hcells]
  exact eachItem_option (fun cells hcells c hc path => checkCell_toJson (h.2 cells hcells c hc) path) _

theorem checkLayer_toJson {l : Layer Float} (h : l.Finite) (path : Path) : checkLayer path l.toJson = .ok () := by
  have hrows : l.toJson.get? "rows" = l.rows.map (Json.ofList Row.toJson) := by simp [Layer.toJson]
  unfold checkLayer
  rw [hrows]
  exact eachItem_option (fun rows hrows r hr path => checkRow_toJson (h rows hrows r hr) path) _

theorem checkColor_toJson (s : ColorStyle) (path : Path) : checkColor path s.toJson = .ok () :=
  present_eq (show s.toJson.get? "color" = some (.string s.color) by simp [ColorStyle.toJson, List.lookup_append]) rfl

/-- A layout is written with its size, its styles and its layers, in none of which anything is missing. -/
theorem checkLayout_toJson {l : Layout Float} (h : l.Finite) (path : Path) : checkLayout path l.toJson = .ok () := by
  have hcolors : l.styles.toJson.get? "colors" = l.styles.colors.map (Table.toJson ColorStyle.toJson) := by
    simp [Styles.toJson, List.lookup_append]
  unfold checkLayout
  rw [present_eq (show l.toJson.get? "size" = some (.string l.size.name) by simp [Layout.toJson]) rfl]
  -- what is left of the walk, with the two parts that it goes down to
  show (do
    let styles ← property path l.toJson "styles" .object
    eachMember (path ++ [.field "styles", .field "colors"]) (styles.get? "colors") checkColor
    let layers ← property path l.toJson "layers" .array
    eachItem (path ++ [.field "layers"]) (some layers) checkLayer) = Except.ok ()
  rw [property_eq (show l.toJson.get? "styles" = some l.styles.toJson by simp [Layout.toJson]) rfl,
    property_eq (show l.toJson.get? "layers" = some (Json.ofList Layer.toJson l.layers) by simp [Layout.toJson]) rfl]
  show (do
    eachMember _ (l.styles.toJson.get? "colors") checkColor
    eachItem _ (some (Json.ofList Layer.toJson l.layers)) checkLayer) = Except.ok ()
  rw [hcolors, eachMember_option fun t _ m _ path => checkColor_toJson m.2 path]
  exact eachItem_ofList (fun layer hlayer path => checkLayer_toJson (h layer hlayer) path) _

/-- **Nothing is missing in a written definition**, whatever `id` may stand among its members. -/
theorem check_eq_ok {d : Draft Float} (h : d.Finite) {json : Json}
    (hsame : ∀ name ≠ "id", json.get? name = d.toJson.get? name) : check json = .ok () := by
  have hname : json.get? "name" = some (.string d.name) := by
    rw [hsame _ (by decide)]
    simp [Draft.toJson, Draft.members]
  have hdata : json.get? "data" = some (Table.toJson .string d.data) := by
    rw [hsame _ (by decide)]
    simp [Draft.toJson, Draft.members, List.lookup_append]
  have hlayouts : json.get? "layouts" = some (Table.toJson Layout.toJson d.layouts) := by
    rw [hsame _ (by decide)]
    simp [Draft.toJson, Draft.members, List.lookup_append]
  unfold check
  rw [present_eq hname rfl, present_eq hdata rfl, property_eq hlayouts rfl]
  exact eachMember_toJson (fun m hm path => checkLayout_toJson (h m hm) path) _

end HomeWidget.Required
