import HomeWidget.Proofs.Definition.Gaps

/-!
# What the two passes ask for

A document is walked for what it must have, and then it is decoded. The decoding asks for the same properties, but it
accepts a record also as the array of its members. Here it is said what a value lacks, in whatever spelling the decoding
accepts: it holds a record without one of the properties. Two facts meet there. The decoding reports an absent property
only of a value that lacks it. And a document that the walk lets pass lacks nothing, but for one place that the walk does
not look into: a layer that is written as an array.

Main results: `blames_draft`, `exists_of_lacks_draft`, `Draft.lacking_is_reported`.
-/
namespace HomeWidget

open Decode Json

/-! ## §1. What a value lacks -/

/-- Records lack properties: what is true of a value and a property. -/
abbrev Lacking := Json → String → Prop

/-- The member of this name is absent, and that is the property. -/
def Absent (ms : List (String × Json)) (name field : String) : Prop := ms.lookup name = none ∧ field = name

namespace Lacking

/-- The member of this name lacks the property. -/
def InMember (lacks : Lacking) (ms : List (String × Json)) (name field : String) : Prop :=
  ∃ value, ms.lookup name = some value ∧ lacks value field

/-- An item of the array that the member of this name is lacks the property. -/
def InItems (lacks : Lacking) (ms : List (String × Json)) (name field : String) : Prop :=
  ∃ items, ms.lookup name = some (.array items) ∧ ∃ item ∈ items, lacks item field

/-- A member of the object that the member of this name is lacks the property. -/
def InMembers (lacks : Lacking) (ms : List (String × Json)) (name field : String) : Prop :=
  ∃ members, ms.lookup name = some (.object members) ∧ ∃ m ∈ members, lacks m.2 field

end Lacking

open Lacking

/-- A cell lacks its width. -/
def Cell.Lacks : Lacking := fun json field =>
  ∃ ms, recordMembers ["width", "padding", "background_color_style", "text", "image", "link_url_data_ref"] json = .ok ms
    ∧ Absent ms "width" field

/-- A row lacks its height, or one of its cells lacks something. -/
def Row.Lacks : Lacking := fun json field =>
  ∃ ms, recordMembers ["height", "cells"] json = .ok ms ∧ (Absent ms "height" field ∨ InItems Cell.Lacks ms "cells" field)

/-- One of the rows of a layer lacks something. -/
def Layer.Lacks : Lacking := fun json field =>
  ∃ ms, recordMembers ["rows"] json = .ok ms ∧ InItems Row.Lacks ms "rows" field

/-- A colour style lacks its colour. -/
def ColorStyle.Lacks : Lacking := fun json field =>
  ∃ ms, recordMembers ["label", "color"] json = .ok ms ∧ Absent ms "color" field

/-- One of the colour styles lacks something. -/
def Styles.Lacks : Lacking := fun json field =>
  ∃ ms, recordMembers ["colors", "fonts"] json = .ok ms ∧ InMembers ColorStyle.Lacks ms "colors" field

/-- A layout lacks its size, its styles or its layers, or they lack something. -/
def Layout.Lacks : Lacking := fun json field =>
  ∃ ms, recordMembers ["size", "styles", "layers"] json = .ok ms
    ∧ (Absent ms "size" field ∨ Absent ms "styles" field ∨ Absent ms "layers" field
      ∨ InMember Styles.Lacks ms "styles" field ∨ InItems Layer.Lacks ms "layers" field)

/-- A definition lacks its name, its data or its layouts, or one of the layouts lacks something. -/
def Draft.Lacks : Lacking := fun json field =>
  ∃ ms, recordMembers Draft.declared json = .ok ms
    ∧ (Absent ms "name" field ∨ Absent ms "data" field ∨ Absent ms "layouts" field
      ∨ InMembers Layout.Lacks ms "layouts" field)

/-! ## §2. What the decoding reports -/

section
variable {α β : Type} {P : String → Prop}

/-- If a reading fails for an absent property, it is one of these. -/
def Blames (x : Decoded α) (P : String → Prop) : Prop := ∀ field, x = .error (.absent field) → P field

/-- A reading that comes through blames nothing. -/
theorem blames_ok (x : α) : Blames (.ok x) P := by
  intro field h
  cases h

/-- A reading in two steps blames what either step does. -/
theorem blames_bind {x : Decoded α} {f : α → Decoded β} (hx : Blames x P) (hf : ∀ a, x = .ok a → Blames (f a) P) :
    Blames (x >>= f) P := by
  intro field h
  cases x with
  | error e => exact hx field (congrArg Except.error (Except.error.inj h))
  | ok a => exact hf a rfl field h

/-- What is no text is of the wrong kind; no property is blamed for it. -/
theorem blames_text (json : Json) : Blames (asText json) P := by
  intro field h
  cases json <;> cases h

theorem blames_number (json : Json) : Blames (asNumber json) P := by
  intro field h
  cases json <;> cases h

theorem blames_whole (json : Json) : Blames (asWhole json) P := by
  intro field h
  unfold asWhole at h
  split at h
  · split at h <;> cases h
  · cases h

/-- A text that is no date blames no property either. -/
theorem blames_date (json : Json) : Blames (asDate json) P := by
  refine blames_bind (blames_text json) fun text _ => ?_
  intro field h
  split at h <;> cases h

/-- What is no tag blames no property. -/
theorem blames_tag (ofName : String → α) (json : Json) : Blames (asTag ofName json) P := by
  intro field h
  unfold asTag at h
  split at h <;> cases h

/-- A reading of many values blames what the reading of one of them does. -/
theorem blames_mapM {f : β → Decoded α} {xs : List β} (h : ∀ x ∈ xs, Blames (f x) P) : Blames (xs.mapM f) P := by
  induction xs with
  | nil => exact blames_ok []
  | cons x xs ih =>
    rw [List.mapM_cons]
    refine blames_bind (h x List.mem_cons_self) fun y _ => ?_
    refine blames_bind (ih fun z hz => h z (List.mem_cons_of_mem _ hz)) fun ys _ => ?_
    exact blames_ok _

variable {read : Json → Decoded α} {ms : List (String × Json)} {name : String}

/-- A list is read by its items. -/
theorem blames_list {json : Json} (h : ∀ items, json = .array items → ∀ v ∈ items, Blames (read v) P) :
    Blames (asList read json) P := by
  cases json with
  | array items => exact blames_mapM (h items rfl)
  | _ =>
    intro field h
    cases h

/-- A table is read by its members. -/
theorem blames_table {json : Json} (h : ∀ members, json = .object members → ∀ m ∈ members, Blames (read m.2) P) :
    Blames (asTable read json) P := by
  cases json with
  | object members =>
    refine blames_bind (blames_mapM fun m hm => ?_) fun ms _ => blames_ok _
    exact blames_bind (h members rfl m hm) fun value _ => blames_ok _
  | _ =>
    intro field h
    cases h

/-- A value that is no record at all blames no property. -/
theorem blames_recordMembers (declared : List String) (json : Json) : Blames (recordMembers declared json) P := by
  intro field h
  unfold recordMembers at h
  split at h
  · cases h
  · split at h <;> cases h
  · cases h

/-- A property that must be there is blamed if it is absent; if it is there, its value may blame others. -/
theorem blames_required (habsent : ms.lookup name = none → P name)
    (h : ∀ value, ms.lookup name = some value → Blames (read value) P) : Blames (required ms name read) P := by
  intro field hfield
  unfold required at hfield
  split at hfield
  next value hvalue => exact h value hvalue field hfield
  next hnone =>
    cases hfield
    exact habsent hnone

/-- A property that may be absent is never blamed itself. -/
theorem blames_ifGiven (h : ∀ value, ms.lookup name = some value → Blames (read value) P) :
    Blames (ifGiven ms name read) P := by
  intro field hfield
  unfold ifGiven at hfield
  split at hfield
  · cases hfield
  next value _ hvalue =>
    cases hread : read value with
    | ok x =>
      rw [hread] at hfield
      cases hfield
    | error e =>
      rw [hread] at hfield
      cases hfield
      exact h value hvalue field hread
  · cases hfield

end

/-- A text needs no property, whatever it is written as; nor does an image or a style of type. -/
theorem blames_textNode {P : String → Prop} (json : Json) : Blames (TextNode.ofJson json) P := by
  refine blames_bind (blames_recordMembers _ json) fun ms _ => ?_
  refine blames_bind (blames_ifGiven fun v _ => blames_text v) fun string _ => ?_
  refine blames_bind (blames_ifGiven fun v _ => blames_text v) fun dataRef _ => ?_
  refine blames_bind (blames_ifGiven fun v _ => blames_text v) fun colorStyle _ => ?_
  refine blames_bind (blames_ifGiven fun v _ => blames_text v) fun fontStyle _ => ?_
  refine blames_bind (blames_ifGiven fun v _ => blames_number v) fun size _ => ?_
  refine blames_bind (blames_ifGiven fun v _ => blames_tag _ v) fun weight _ => ?_
  refine blames_bind (blames_ifGiven fun v _ => blames_tag _ v) fun justification _ => ?_
  refine blames_bind (blames_ifGiven fun v _ => blames_number v) fun scale _ => ?_
  exact blames_ok _

theorem blames_imageNode {P : String → Prop} (json : Json) : Blames (ImageNode.ofJson json) P := by
  refine blames_bind (blames_recordMembers _ json) fun ms _ => ?_
  refine blames_bind (blames_ifGiven fun v _ => blames_text v) fun dataRef _ => ?_
  refine blames_bind (blames_ifGiven fun v _ => blames_text v) fun url _ => ?_
  refine blames_bind (blames_ifGiven fun v _ => blames_tag _ v) fun mask _ => ?_
  exact blames_ok _

theorem blames_fontStyle {P : String → Prop} (json : Json) : Blames (FontStyle.ofJson json) P := by
  refine blames_bind (blames_recordMembers _ json) fun ms _ => ?_
  refine blames_bind (blames_ifGiven fun v _ => blames_text v) fun label _ => ?_
  refine blames_bind (blames_ifGiven fun v _ => blames_text v) fun family _ => ?_
  exact blames_ok _

/-- Only a cell that lacks its width makes its decoding blame a property. -/
theorem blames_cell (json : Json) : Blames (Cell.ofJson json) (Cell.Lacks json) := by
  refine blames_bind (blames_recordMembers _ json) fun ms hms => ?_
  refine blames_bind (blames_required (fun h => ⟨ms, hms, h, rfl⟩) fun v _ => blames_number v) fun width _ => ?_
  refine blames_bind (blames_ifGiven fun v _ => blames_number v) fun padding _ => ?_
  refine blames_bind (blames_ifGiven fun v _ => blames_text v) fun background _ => ?_
  refine blames_bind (blames_ifGiven fun v _ => blames_textNode v) fun text _ => ?_
  refine blames_bind (blames_ifGiven fun v _ => blames_imageNode v) fun image _ => ?_
  refine blames_bind (blames_ifGiven fun v _ => blames_text v) fun link _ => ?_
  exact blames_ok _

/-- What is said of an item is said of the array that holds it. -/
theorem blames_items {α : Type} {read : Json → Decoded α} {lacks : Lacking} {P : String → Prop}
    {ms : List (String × Json)} {name : String} {value : Json} (hread : ∀ json, Blames (read json) (lacks json))
    (hP : ∀ field, InItems lacks ms name field → P field) (hvalue : ms.lookup name = some value) :
    Blames (asList read value) P := by
  refine blames_list fun items hitems v hv field hfield => hP field ⟨items, ?_, v, hv, hread v field hfield⟩
  rw [hvalue, hitems]

/-- What is said of a member is said of the object that holds it. -/
theorem blames_members {α : Type} {read : Json → Decoded α} {lacks : Lacking} {P : String → Prop}
    {ms : List (String × Json)} {name : String} {value : Json} (hread : ∀ json, Blames (read json) (lacks json))
    (hP : ∀ field, InMembers lacks ms name field → P field) (hvalue : ms.lookup name = some value) :
    Blames (asTable read value) P := by
  refine blames_table fun members hmembers m hm field hfield => hP field ⟨members, ?_, m, hm, hread m.2 field hfield⟩
  rw [hvalue, hmembers]

/-- For a row it is its height, or what one of its cells lacks. -/
theorem blames_row (json : Json) : Blames (Row.ofJson json) (Row.Lacks json) := by
  refine blames_bind (blames_recordMembers _ json) fun ms hms => ?_
  refine blames_bind (blames_required (fun h => ⟨ms, hms, .inl ⟨h, rfl⟩⟩) fun v _ => blames_number v) fun height _ => ?_
  refine blames_bind (blames_ifGiven fun v hv => ?_) fun cells _ => blames_ok _
  exact blames_items blames_cell (fun field h => ⟨ms, hms, .inr h⟩) hv

/-- For a layer it is what one of its rows lacks. -/
theorem blames_layer (json : Json) : Blames (Layer.ofJson json) (Layer.Lacks json) := by
  refine blames_bind (blames_recordMembers _ json) fun ms hms => ?_
  refine blames_bind (blames_ifGiven fun v hv => ?_) fun rows _ => blames_ok _
  exact blames_items blames_row (fun field h => ⟨ms, hms, h⟩) hv

theorem blames_colorStyle (json : Json) : Blames (ColorStyle.ofJson json) (ColorStyle.Lacks json) := by
  refine blames_bind (blames_recordMembers _ json) fun ms hms => ?_
  refine blames_bind (blames_ifGiven fun v _ => blames_text v) fun label _ => ?_
  refine blames_bind (blames_required (fun h => ⟨ms, hms, h, rfl⟩) fun v _ => blames_text v) fun color _ => ?_
  exact blames_ok _

theorem blames_styles (json : Json) : Blames (Styles.ofJson json) (Styles.Lacks json) := by
  refine blames_bind (blames_recordMembers _ json) fun ms hms => ?_
  refine blames_bind (blames_ifGiven fun v hv => ?_) fun colors _ => ?_
  · exact blames_members blames_colorStyle (fun field h => ⟨ms, hms, h⟩) hv
  · refine blames_bind (blames_ifGiven fun v _ => ?_) fun fonts _ => blames_ok _
    exact blames_table fun members _ m _ => blames_fontStyle m.2

/-- For a layout it is its size, its styles and its layers, or what they lack. -/
theorem blames_layout (json : Json) : Blames (Layout.ofJson json) (Layout.Lacks json) := by
  refine blames_bind (blames_recordMembers _ json) fun ms hms => ?_
  refine blames_bind (blames_required (fun h => ⟨ms, hms, .inl ⟨h, rfl⟩⟩) fun v _ => blames_tag _ v) fun size _ => ?_
  refine blames_bind (blames_required (fun h => ⟨ms, hms, .inr (.inl ⟨h, rfl⟩)⟩) fun v hv field h => ?_) fun styles _ => ?_
  · exact ⟨ms, hms, .inr (.inr (.inr (.inl ⟨v, hv, blames_styles v field h⟩)))⟩
  · refine blames_bind (blames_required (fun h => ⟨ms, hms, .inr (.inr (.inl ⟨h, rfl⟩))⟩) fun v hv => ?_)
      fun layers _ => blames_ok _
    exact blames_items blames_layer (fun field h => ⟨ms, hms, .inr (.inr (.inr (.inr h)))⟩) hv

/-- **The decoding reports an absent property only of a document that lacks it.** -/
theorem blames_draft (json : Json) : Blames (Draft.ofJson json) (Draft.Lacks json) := by
  refine blames_bind (blames_recordMembers _ json) fun ms hms => ?_
  refine blames_bind (blames_required (fun h => ⟨ms, hms, .inl ⟨h, rfl⟩⟩) fun v _ => blames_text v) fun name _ => ?_
  refine blames_bind (blames_ifGiven fun v _ => blames_text v) fun description _ => ?_
  refine blames_bind (blames_ifGiven fun v _ => blames_date v) fun modified _ => ?_
  refine blames_bind (blames_ifGiven fun v _ => blames_whole v) fun version _ => ?_
  refine blames_bind (blames_required (fun h => ⟨ms, hms, .inr (.inl ⟨h, rfl⟩)⟩) fun v _ => ?_) fun data _ => ?_
  · exact blames_table fun members _ m _ => blames_text m.2
  refine blames_bind (blames_ifGiven fun v _ => blames_text v) fun defaultLayout _ => ?_
  refine blames_bind (blames_ifGiven fun v _ => blames_text v) fun thumbnail _ => ?_
  refine blames_bind (blames_ifGiven fun v _ => blames_list fun items _ item _ => blames_text item) fun order _ => ?_
  refine blames_bind (blames_required (fun h => ⟨ms, hms, .inr (.inr (.inl ⟨h, rfl⟩))⟩) fun v hv => ?_)
    fun layouts _ => blames_ok _
  exact blames_members blames_layout (fun field h => ⟨ms, hms, .inr (.inr (.inr h))⟩) hv

/-! ## §3. What the walk lets pass -/

namespace Required

variable {p : Part} {ms : List (String × Json)} {lacks : Lacking} {name field : String} {kind : Kind}

/-- A part that holds a property is an object. -/
theorem object_of_filled (h : Site.Filled ⟨p, name, kind⟩) : ∃ ms, p.value = .object ms := by
  obtain ⟨value, hvalue, -⟩ := h
  have hget : p.value.get? name = some value := hvalue
  unfold Json.get? at hget
  split at hget
  next ms hms => exact ⟨ms, hms⟩
  next => cases hget

/-- A property that a part holds is among its members. -/
theorem lookup_of_filled (hp : p.value = .object ms) (h : Site.Filled ⟨p, name, kind⟩) :
    ∃ value, ms.lookup name = some value ∧ kind.admits value = true := by
  obtain ⟨value, hvalue, hkind⟩ := h
  have hget : p.value.get? name = some value := hvalue
  rw [hp] at hget
  exact ⟨value, hget, hkind⟩

/-- So a property that is filled is not absent. -/
theorem not_absent (hp : p.value = .object ms) (h : Site.Filled ⟨p, name, kind⟩) : ¬Absent ms name field := by
  rintro ⟨hnone, -⟩
  obtain ⟨value, hvalue, -⟩ := lookup_of_filled hp h
  rw [hnone] at hvalue
  cases hvalue

/-- The decoding sees the members of a part that is an object. -/
theorem recordMembers_eq {declared : List String} {ms' : List (String × Json)} (hp : p.value = .object ms)
    (h : recordMembers declared p.value = .ok ms') : ms' = ms := by
  rw [hp] at h
  exact (Except.ok.inj h).symm

theorem member?_eq (hp : p.value = .object ms) (name : String) :
    p.member? name = (ms.lookup name).map fun value => ⟨p.path ++ [.field name], value⟩ := by
  unfold Part.member?
  rw [hp]
  rfl

/-- An item that the decoding sees is one that the walk goes to. -/
theorem exists_itemsOf (hp : p.value = .object ms) (h : InItems lacks ms name field) :
    ∃ q ∈ p.itemsOf name, lacks q.value field := by
  obtain ⟨items, hitems, item, hitem, hlacks⟩ := h
  obtain ⟨i, hi⟩ := List.mem_iff_getElem?.1 hitem
  refine ⟨⟨p.path ++ [.field name] ++ [.index i], item⟩, ?_, hlacks⟩
  unfold Part.itemsOf
  rw [member?_eq hp, hitems]
  exact List.mem_map.2 ⟨(item, i), List.mem_zipIdx_iff_getElem?.2 hi, rfl⟩

/-- A member that the decoding sees is one that the walk goes to. -/
theorem exists_membersOf (hp : p.value = .object ms) (h : InMembers lacks ms name field) :
    ∃ q ∈ p.membersOf name, lacks q.value field := by
  obtain ⟨members, hmembers, m, hm, hlacks⟩ := h
  refine ⟨⟨p.path ++ [.field name] ++ [.field m.1], m.2⟩, ?_, hlacks⟩
  unfold Part.membersOf
  rw [member?_eq hp, hmembers]
  exact List.mem_map.2 ⟨m, hm, rfl⟩

/-- A cell that the walk lets pass lacks nothing. -/
theorem not_lacks_cell (h : ∀ s ∈ cellSites p, s.Filled) : ¬Cell.Lacks p.value field := by
  rintro ⟨ms', hms', habsent⟩
  have hwidth := h _ List.mem_cons_self
  obtain ⟨ms, hp⟩ := object_of_filled hwidth
  rw [recordMembers_eq hp hms'] at habsent
  exact not_absent hp hwidth habsent

/-- A row that the walk lets pass lacks nothing, and neither do its cells. -/
theorem not_lacks_row (h : ∀ s ∈ rowSites p, s.Filled) : ¬Row.Lacks p.value field := by
  rintro ⟨ms', hms', hlacks⟩
  obtain ⟨hheight, hcells⟩ := List.forall_mem_cons.1 h
  obtain ⟨ms, hp⟩ := object_of_filled hheight
  rw [recordMembers_eq hp hms'] at hlacks
  rcases hlacks with habsent | hcell
  · exact not_absent hp hheight habsent
  · obtain ⟨cell, hmem, hcell⟩ := exists_itemsOf hp hcell
    exact not_lacks_cell (List.forall_mem_flatMap.1 hcells cell hmem) hcell

/-- **A layer that the walk lets pass lacks something only if it is written as an array**: of anything but an object the
walk sees no rows. -/
theorem items?_of_lacks_layer (h : ∀ s ∈ layerSites p, s.Filled) (hlacks : Layer.Lacks p.value field) :
    p.value.items?.isSome = true := by
  obtain ⟨ms', hms', hrow⟩ := hlacks
  cases hp : p.value with
  | array items => rfl
  | object ms =>
    rw [recordMembers_eq hp hms'] at hrow
    obtain ⟨row, hmem, hrow⟩ := exists_itemsOf hp hrow
    exact absurd hrow (not_lacks_row (List.forall_mem_flatMap.1 h row hmem))
  | _ =>
    rw [hp] at hms'
    cases hms'

theorem not_lacks_color (h : ∀ s ∈ colorSites p, s.Filled) : ¬ColorStyle.Lacks p.value field := by
  rintro ⟨ms', hms', habsent⟩
  have hcolor := h _ List.mem_cons_self
  obtain ⟨ms, hp⟩ := object_of_filled hcolor
  rw [recordMembers_eq hp hms'] at habsent
  exact not_absent hp hcolor habsent

/-- Styles that the walk lets pass lack nothing. -/
theorem not_lacks_styles (hp : p.value = .object ms) (hstyles : Site.Filled ⟨p, "styles", .object⟩)
    (h : ∀ s ∈ (colorsOf p).flatMap colorSites, s.Filled) : ¬InMember Styles.Lacks ms "styles" field := by
  rintro ⟨styles, hlookup, members', hmembers', hcolor⟩
  obtain ⟨value, hvalue, hkind⟩ := lookup_of_filled hp hstyles
  obtain rfl : styles = value := Option.some.inj (hlookup.symm.trans hvalue)
  -- the styles are an object, as the walk demands, so that their colours are the ones it went to
  cases styles with
  | object members =>
    obtain rfl : members' = members := (Except.ok.inj hmembers').symm
    obtain ⟨color, hmem, hcolor⟩ := exists_membersOf (p := ⟨p.path ++ [.field "styles"], .object members'⟩) rfl hcolor
    have hcolors : color ∈ colorsOf p := by
      unfold colorsOf
      rw [member?_eq hp, hlookup]
      exact hmem
    exact not_lacks_color (List.forall_mem_flatMap.1 h color hcolors) hcolor
  | _ => cases hkind

/-- A layer of the layout, written as an array, lacks the property. -/
def HasBareLayer (layout : Part) (field : String) : Prop :=
  ∃ layer ∈ layout.itemsOf "layers", layer.value.items?.isSome = true ∧ Layer.Lacks layer.value field

/-- A layout that the walk lets pass can lack something only in a layer written as an array. -/
theorem hasBareLayer_of_lacks (h : ∀ s ∈ layoutSites p, s.Filled) (hlacks : Layout.Lacks p.value field) :
    HasBareLayer p field := by
  obtain ⟨ms', hms', hlacks⟩ := hlacks
  unfold layoutSites at h
  rw [List.forall_mem_cons, List.forall_mem_cons, List.forall_mem_append, List.forall_mem_cons] at h
  obtain ⟨hsize, hstyles, hcolors, hlayers, hsites⟩ := h
  obtain ⟨ms, hp⟩ := object_of_filled hsize
  rw [recordMembers_eq hp hms'] at hlacks
  rcases hlacks with habsent | habsent | habsent | hcolor | hlayer
  · exact absurd habsent (not_absent hp hsize)
  · exact absurd habsent (not_absent hp hstyles)
  · exact absurd habsent (not_absent hp hlayers)
  · exact absurd hcolor (not_lacks_styles hp hstyles hcolors)
  · obtain ⟨layer, hmem, hlayer⟩ := exists_itemsOf hp hlayer
    exact ⟨layer, hmem, items?_of_lacks_layer (List.forall_mem_flatMap.1 hsites layer hmem) hlayer, hlayer⟩

/-- **A document that the walk lets pass lacks something only in a layer that is written as an array.** -/
theorem exists_of_lacks_draft {members : List (String × Json)} (h : ∀ s ∈ sites (.object members), s.Filled)
    (hlacks : Draft.Lacks (.object members) field) :
    ∃ layout ∈ (Part.whole (.object members)).membersOf "layouts", HasBareLayer layout field := by
  obtain ⟨ms', hms', hlacks⟩ := hlacks
  unfold sites at h
  rw [List.forall_mem_cons, List.forall_mem_cons, List.forall_mem_cons] at h
  obtain ⟨hname, hdata, hlayouts, hsites⟩ := h
  have hp : (Part.whole (.object members)).value = .object members := rfl
  rw [recordMembers_eq hp hms'] at hlacks
  rcases hlacks with habsent | habsent | habsent | hlayout
  · exact absurd habsent (not_absent hp hname)
  · exact absurd habsent (not_absent hp hdata)
  · exact absurd habsent (not_absent hp hlayouts)
  · obtain ⟨layout, hmem, hlayout⟩ := exists_membersOf hp hlayout
    exact ⟨layout, hmem, hasBareLayer_of_lacks (List.forall_mem_flatMap.1 hsites layout hmem) hlayout⟩

end Required

/-! ## §4. Both passes -/

namespace Draft

open Required

/--
**A document that lacks something is reported to miss a property**, unless what is lacking lies in a layer that is
written as an array. Take any object, and any property.

If the decoding of the object fails because the property is absent, a record in it lacks the property. If a record in it
lacks the property, in whatever spelling, then reading the document reports that a required property is missing; or
else the record lies in a layer that is written as the array of its rows.
-/
theorem lacking_is_reported (members : List (String × Json)) (field : String) :
    let root := Json.object members
    (Draft.ofJson root = .error (.absent field) → Draft.Lacks root field)
      ∧ (Draft.Lacks root field →
          (∃ name ∈ fields, ∃ parent, Draft.read root = .error (.missingProperty name parent))
            ∨ ∃ layout ∈ (Part.whole root).membersOf "layouts", HasBareLayer layout field) := by
  intro root
  refine ⟨blames_draft root field, fun hlacks => ?_⟩
  cases hcheck : check root with
  | ok u => exact Or.inr (exists_of_lacks_draft ((check_eq_ok_iff root).1 hcheck) hlacks)
  | error gap =>
    obtain ⟨before, s, after, -, -, -, hplaced, rfl⟩ := exists_of_check_eq_error hcheck
    exact Or.inl ⟨s.field, hplaced.field_mem, _, read_of_gap hcheck⟩

/-- A document with one layout, of which these are the layers. -/
def layered (layers : List Json) : Json :=
  .object [("name", .string "n"), ("data", .object []),
    ("layouts", .object [("a", .object [("size", .string "small"), ("styles", .object []), ("layers", .array layers)])])]

/-- A row without a height, in a layer that is an object, is reported; and what is not reported lies in a bare layer. -/
theorem lacking_is_reported_row :
    let row := Json.object [("cells", .array [])]
    let written := layered [.object [("rows", .array [row])]]
    let bare := layered [.array [.array [row]]]
    Draft.ofJson written = .error (.absent "height")
      ∧ (∃ name ∈ fields, ∃ parent, Draft.read written = .error (.missingProperty name parent))
      ∧ Draft.ofJson bare = .error (.absent "height")
      ∧ ∃ layout ∈ (Part.whole bare).membersOf "layouts", HasBareLayer layout "height" := by
  intro row written bare
  have hwritten : Draft.ofJson written = .error (.absent "height") := rfl
  have hbare : Draft.ofJson bare = .error (.absent "height") := rfl
  refine ⟨hwritten, ?_, hbare, ?_⟩
  · obtain ⟨hlacks, hreported⟩ := lacking_is_reported _ "height"
    refine (hreported (hlacks hwritten)).resolve_right ?_
    rintro ⟨layout, hlayout, layer, hlayer, hitems, -⟩
    have hobjects : ∀ layout ∈ (Part.whole written).membersOf "layouts", ∀ layer ∈ layout.itemsOf "layers",
        layer.value.items?.isSome = false := by decide
    rw [hobjects layout hlayout layer hlayer] at hitems
    cases hitems
  · obtain ⟨hlacks, hreported⟩ := lacking_is_reported _ "height"
    refine (hreported (hlacks hbare)).resolve_left ?_
    rintro ⟨name, -, parent, hread⟩
    cases hread

/-- **In a layer that is written as an array, what is lacking is not reported**: the decoding fails for an absent height,
and the reading says nothing of a missing property. -/
theorem bare_layer_not_reported :
    let bare := layered [.array [.array [.object [("cells", .array [])]]]]
    Draft.ofJson bare = .error (.absent "height")
      ∧ Draft.read bare = .error (.undecodable (.mismatch (.absent "height")))
      ∧ ¬∃ name parent, Draft.read bare = .error (.missingProperty name parent) := by
  intro bare
  refine ⟨rfl, rfl, ?_⟩
  rintro ⟨name, parent, hread⟩
  cases hread

end Draft
end HomeWidget
