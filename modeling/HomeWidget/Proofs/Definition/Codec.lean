import HomeWidget.Definition.Decode
import HomeWidget.Definition.Encode
import HomeWidget.Proofs.Table
import HomeWidget.Proofs.Time.RoundTrip

/-!
# Definitions read back from JSON

Every part of a definition is read from what it is written as. A member is looked up among the written ones, where
its name stands once or, if it is absent, not at all; so each record needs only that its own names differ, and that
its parts are read back.

Main results: `Codes`, `codes_layout`, `Draft.ofJson_eq`.
-/
namespace HomeWidget

open Decode Json

/-! ## §1. Definitions that can be written -/

/-- The numbers of a text are finite. -/
def TextNode.Finite (t : TextNode Float) : Prop :=
  (∀ x ∈ t.size, x.isFinite = true) ∧ ∀ x ∈ t.minScaleFactor, x.isFinite = true

instance (t : TextNode Float) : Decidable t.Finite :=
  inferInstanceAs (Decidable ((∀ x ∈ t.size, x.isFinite = true) ∧ ∀ x ∈ t.minScaleFactor, x.isFinite = true))

/-- The numbers of a cell are finite. -/
def Cell.Finite (c : Cell Float) : Prop :=
  c.width.isFinite = true ∧ (∀ x ∈ c.padding, x.isFinite = true) ∧ ∀ t ∈ c.text, t.Finite

instance (c : Cell Float) : Decidable c.Finite :=
  inferInstanceAs (Decidable (c.width.isFinite = true ∧ (∀ x ∈ c.padding, x.isFinite = true) ∧ ∀ t ∈ c.text, t.Finite))

/-- The numbers of a row are finite. -/
def Row.Finite (r : Row Float) : Prop := r.height.isFinite = true ∧ ∀ cells ∈ r.cells, ∀ c ∈ cells, c.Finite

instance (r : Row Float) : Decidable r.Finite :=
  inferInstanceAs (Decidable (r.height.isFinite = true ∧ ∀ cells ∈ r.cells, ∀ c ∈ cells, c.Finite))

/-- The numbers of a layer are finite. -/
def Layer.Finite (l : Layer Float) : Prop := ∀ rows ∈ l.rows, ∀ r ∈ rows, r.Finite

instance (l : Layer Float) : Decidable l.Finite :=
  inferInstanceAs (Decidable (∀ rows ∈ l.rows, ∀ r ∈ rows, r.Finite))

/-- The numbers of a layout are finite. -/
def Layout.Finite (l : Layout Float) : Prop := ∀ layer ∈ l.layers, layer.Finite

instance (l : Layout Float) : Decidable l.Finite := inferInstanceAs (Decidable (∀ layer ∈ l.layers, layer.Finite))

/-- The numbers of a definition are finite. -/
def Draft.Finite (d : Draft Float) : Prop := ∀ m ∈ d.layouts.entries, m.2.Finite

instance (d : Draft Float) : Decidable d.Finite := inferInstanceAs (Decidable (∀ m ∈ d.layouts.entries, m.2.Finite))

/-- The version is a whole number of 64 bits with a sign, and the date is one that dates may have. -/
def Draft.Typed (d : Draft Float) : Prop :=
  (∀ n ∈ d.version, -2 ^ 63 ≤ n ∧ n < 2 ^ 63) ∧ ∀ t ∈ d.contentLastModified, t.Valid

instance (d : Draft Float) : Decidable d.Typed :=
  inferInstanceAs (Decidable ((∀ n ∈ d.version, -2 ^ 63 ≤ n ∧ n < 2 ^ 63) ∧ ∀ t ∈ d.contentLastModified, t.Valid))

/-! ## §2. Values -/

/-- A value is read from what it is written as, which is not `null`. -/
structure Codes {α : Type} (write : α → Json) (read : Json → Decoded α) (x : α) : Prop where
  given : write x ≠ .null
  reads : read (write x) = .ok x

variable {α : Type}

theorem codes_text (s : String) : Codes .string asText s := ⟨Json.noConfusion, rfl⟩

/-- A number is read back if it is finite. -/
theorem codes_number {x : Float} (h : x.isFinite = true) : Codes ofFloat asNumber x := by
  have hwrite : ofFloat x = number (.double x) := if_pos h
  refine ⟨?_, ?_⟩
  · rw [hwrite]
    exact Json.noConfusion
  · rw [hwrite]
    rfl

/-- A version is read back if it has 64 bits. -/
theorem codes_whole {n : Int} (h : -2 ^ 63 ≤ n ∧ n < 2 ^ 63) : Codes (number <| .whole ·) asWhole n :=
  ⟨Json.noConfusion, if_pos h⟩

/-- What came through is handed on. -/
theorem ok_bind {α β : Type} (x : α) (f : α → Decoded β) : ((.ok x : Decoded α) >>= f) = f x := rfl

/-- A moment of valid range is read back from its text. -/
theorem codes_date {t : Timestamp} (h : t.Valid) : Codes (.string ·.write) asDate t := by
  refine ⟨Json.noConfusion, ?_⟩
  unfold asDate asText
  rw [ok_bind, Timestamp.ofText?_write h]
  rfl

/-- A tag is read back from its name, if the names tell the tags apart. -/
theorem codes_tag {name : α → String} {ofName : String → α} {x : α} (h : ofName (name x) = x) :
    Codes (.string <| name ·) (asTag ofName) x := by
  refine ⟨Json.noConfusion, ?_⟩
  show Except.ok (ofName (name x)) = _
  rw [h]

/-- Size classes are known again by their names, and so are the other tags. -/
theorem SizeClass.ofName_name (s : SizeClass) : SizeClass.ofName s.name = s := by
  cases s <;> decide

theorem FontWeight.ofName_name (w : FontWeight) : FontWeight.ofName w.name = w := by
  cases w <;> decide

theorem Justification.ofName_name (j : Justification) : Justification.ofName j.name = j := by
  cases j <;> decide

theorem Mask.ofName_name (m : Mask) : Mask.ofName m.name = m := by
  cases m <;> decide

/-- What each item is read back from, all are read back from. -/
theorem mapM_map {β : Type} {write : α → β} {read : β → Decoded α} {items : List α}
    (h : ∀ x ∈ items, read (write x) = .ok x) : (items.map write).mapM read = .ok items := by
  induction items with
  | nil => rfl
  | cons x items ih =>
    rw [List.map_cons, List.mapM_cons, h x List.mem_cons_self, ih fun y hy => h y (List.mem_cons_of_mem _ hy)]
    rfl

/-- A list is read back if its items are. -/
theorem codes_list {write : α → Json} {read : Json → Decoded α} {items : List α}
    (h : ∀ x ∈ items, Codes write read x) : Codes (Json.ofList write) (asList read) items :=
  ⟨Json.noConfusion, mapM_map fun x hx => (h x hx).reads⟩

/-- A table is read back if its values are. -/
theorem codes_table {write : α → Json} {read : Json → Decoded α} {t : Table α}
    (h : ∀ m ∈ t.entries, Codes write read m.2) : Codes (Table.toJson write) (asTable read) t := by
  refine ⟨Json.noConfusion, ?_⟩
  have hentries : (t.entries.map fun m => (m.1, write m.2)).mapM
      (fun m => do pure (m.1, ← read m.2)) = (.ok t.entries : Decoded _) := by
    apply mapM_map
    intro m hm
    show (do pure (m.1, ← read (write m.2))) = Except.ok m
    rw [(h m hm).reads]
    rfl
  show (do
    let members ← (t.entries.map fun m => (m.1, write m.2)).mapM (fun m => do pure (m.1, ← read m.2))
    pure (Table.ofList members)) = Except.ok t
  rw [hentries]
  show Except.ok (Table.ofList t.entries) = _
  rw [Table.ofList_entries]

/-! ## §3. Members -/

@[simp]
theorem get?_object (name : String) (ms : List (String × Json)) : (object ms).get? name = ms.lookup name := rfl

/-- Among the members that an optional value is written as, its name leads to the value and no other name to anything.
-/
@[simp]
theorem lookup_member? (key name : String) (value : Option α) (write : α → Json) :
    (member? name value write).lookup key = if key = name then value.map write else none := by
  cases value with
  | none => simp [member?]
  | some x => exact Members.lookup_cons key (name, write x) []

/-- A member that was written if it was there is read as it was. -/
theorem ifGiven_eq {json : Json} {ms : List (String × Json)} (hms : json = object ms) {name : String}
    {value : Option α} {write : α → Json} {read : Json → Decoded α} (hlookup : json.get? name = value.map write)
    (h : ∀ x ∈ value, Codes write read x) : ifGiven ms name read = .ok value := by
  rw [hms, get?_object] at hlookup
  unfold ifGiven
  rw [hlookup]
  cases value with
  | none => rfl
  | some x =>
    obtain ⟨hgiven, hreads⟩ := h x rfl
    rw [Option.map_some]
    -- a `null` would be read as absent, but nothing that is given is written so
    split
    next heq => exact absurd (Option.some.inj heq) hgiven
    next json _ heq =>
      rw [← Option.some.inj heq, hreads]
      rfl
    next heq => cases heq

/-- A member that was written is found, and read back. -/
theorem required_eq {json : Json} {ms : List (String × Json)} (hms : json = object ms) {name : String} {value : α}
    {write : α → Json} {read : Json → Decoded α} (hlookup : json.get? name = some (write value))
    (h : Codes write read value) : required ms name read = .ok value := by
  rw [hms, get?_object] at hlookup
  unfold required
  rw [hlookup]
  exact h.reads

theorem recordMembers_object {json : Json} {ms : List (String × Json)} (hms : json = object ms)
    (declared : List String) : recordMembers declared json = .ok ms := by
  rw [hms]
  rfl

/-! ## §4. Records -/

theorem codes_colorStyle (s : ColorStyle) : Codes ColorStyle.toJson ColorStyle.ofJson s := by
  -- the members stay closed: all that is used of them is what each name finds
  obtain ⟨ms, hms⟩ : ∃ ms, s.toJson = object ms := ⟨_, rfl⟩
  refine ⟨Json.noConfusion, ?_⟩
  have hlabel : ifGiven ms "label" asText = .ok s.label :=
    ifGiven_eq hms (by simp [ColorStyle.toJson, List.lookup_append]) fun x _ => codes_text x
  have hcolor : required ms "color" asText = .ok s.color :=
    required_eq hms (by simp [ColorStyle.toJson, List.lookup_append]) (codes_text s.color)
  unfold ColorStyle.ofJson
  rw [recordMembers_object hms, ok_bind, hlabel, ok_bind, hcolor, ok_bind]
  rfl

theorem codes_fontStyle (s : FontStyle) : Codes FontStyle.toJson FontStyle.ofJson s := by
  obtain ⟨ms, hms⟩ : ∃ ms, s.toJson = object ms := ⟨_, rfl⟩
  refine ⟨Json.noConfusion, ?_⟩
  have hlabel : ifGiven ms "label" asText = .ok s.label :=
    ifGiven_eq hms (by simp [FontStyle.toJson, List.lookup_append]) fun x _ => codes_text x
  have hfamily : ifGiven ms "family" asText = .ok s.family :=
    ifGiven_eq hms (by simp [FontStyle.toJson, List.lookup_append]) fun x _ => codes_text x
  unfold FontStyle.ofJson
  rw [recordMembers_object hms, ok_bind, hlabel, ok_bind, hfamily, ok_bind]
  rfl

/-- Styles are read back, colours and fonts in their order. -/
theorem codes_styles (s : Styles) : Codes Styles.toJson Styles.ofJson s := by
  obtain ⟨ms, hms⟩ : ∃ ms, s.toJson = object ms := ⟨_, rfl⟩
  refine ⟨Json.noConfusion, ?_⟩
  have hcolors : ifGiven ms "colors" (asTable ColorStyle.ofJson) = .ok s.colors :=
    ifGiven_eq hms (by simp [Styles.toJson, List.lookup_append]) fun t _ =>
      codes_table fun m _ => codes_colorStyle m.2
  have hfonts : ifGiven ms "fonts" (asTable FontStyle.ofJson) = .ok s.fonts :=
    ifGiven_eq hms (by simp [Styles.toJson, List.lookup_append]) fun t _ =>
      codes_table fun m _ => codes_fontStyle m.2
  unfold Styles.ofJson
  rw [recordMembers_object hms, ok_bind, hcolors, ok_bind, hfonts, ok_bind]
  rfl

/-- A text with finite numbers is read back. From here on each record is read back if the records in it are. -/
theorem codes_textNode {t : TextNode Float} (h : t.Finite) : Codes TextNode.toJson TextNode.ofJson t := by
  obtain ⟨ms, hms⟩ : ∃ ms, t.toJson = object ms := ⟨_, rfl⟩
  refine ⟨Json.noConfusion, ?_⟩
  have hstring : ifGiven ms "string" asText = .ok t.string :=
    ifGiven_eq hms (by simp [TextNode.toJson, List.lookup_append]) fun x _ => codes_text x
  have hdataRef : ifGiven ms "data_ref" asText = .ok t.dataRef :=
    ifGiven_eq hms (by simp [TextNode.toJson, List.lookup_append]) fun x _ => codes_text x
  have hcolorStyle : ifGiven ms "color_style" asText = .ok t.colorStyle :=
    ifGiven_eq hms (by simp [TextNode.toJson, List.lookup_append]) fun x _ => codes_text x
  have hfontStyle : ifGiven ms "font_style" asText = .ok t.fontStyle :=
    ifGiven_eq hms (by simp [TextNode.toJson, List.lookup_append]) fun x _ => codes_text x
  have hsize : ifGiven ms "size" asNumber = .ok t.size :=
    ifGiven_eq hms (by simp [TextNode.toJson, List.lookup_append]) fun x hx => codes_number (h.1 x hx)
  have hweight : ifGiven ms "weight" (asTag FontWeight.ofName) = .ok t.weight :=
    ifGiven_eq hms (by simp [TextNode.toJson, List.lookup_append]) fun w _ => codes_tag w.ofName_name
  have hjustification : ifGiven ms "justification" (asTag Justification.ofName) = .ok t.justification :=
    ifGiven_eq hms (by simp [TextNode.toJson, List.lookup_append]) fun j _ => codes_tag j.ofName_name
  have hscale : ifGiven ms "min_scale_factor" asNumber = .ok t.minScaleFactor :=
    ifGiven_eq hms (by simp [TextNode.toJson, List.lookup_append]) fun x hx => codes_number (h.2 x hx)
  unfold TextNode.ofJson
  rw [recordMembers_object hms, ok_bind, hstring, ok_bind, hdataRef, ok_bind, hcolorStyle, ok_bind, hfontStyle, ok_bind,
    hsize, ok_bind, hweight, ok_bind, hjustification, ok_bind, hscale, ok_bind]
  rfl

theorem codes_imageNode (i : ImageNode) : Codes ImageNode.toJson ImageNode.ofJson i := by
  obtain ⟨ms, hms⟩ : ∃ ms, i.toJson = object ms := ⟨_, rfl⟩
  refine ⟨Json.noConfusion, ?_⟩
  have hdataRef : ifGiven ms "data_ref" asText = .ok i.dataRef :=
    ifGiven_eq hms (by simp [ImageNode.toJson, List.lookup_append]) fun x _ => codes_text x
  have hurl : ifGiven ms "url" asText = .ok i.url :=
    ifGiven_eq hms (by simp [ImageNode.toJson, List.lookup_append]) fun x _ => codes_text x
  have hmask : ifGiven ms "mask" (asTag Mask.ofName) = .ok i.mask :=
    ifGiven_eq hms (by simp [ImageNode.toJson, List.lookup_append]) fun m _ => codes_tag m.ofName_name
  unfold ImageNode.ofJson
  rw [recordMembers_object hms, ok_bind, hdataRef, ok_bind, hurl, ok_bind, hmask, ok_bind]
  rfl

theorem codes_cell {c : Cell Float} (h : c.Finite) : Codes Cell.toJson Cell.ofJson c := by
  obtain ⟨hwidth, hpadding, htext⟩ := h
  obtain ⟨ms, hms⟩ : ∃ ms, c.toJson = object ms := ⟨_, rfl⟩
  refine ⟨Json.noConfusion, ?_⟩
  have hwidth : required ms "width" asNumber = .ok c.width :=
    required_eq hms (by simp [Cell.toJson]) (codes_number hwidth)
  have hpadding : ifGiven ms "padding" asNumber = .ok c.padding :=
    ifGiven_eq hms (by simp [Cell.toJson, List.lookup_append]) fun x hx => codes_number (hpadding x hx)
  have hbackground : ifGiven ms "background_color_style" asText = .ok c.backgroundColorStyle :=
    ifGiven_eq hms (by simp [Cell.toJson, List.lookup_append]) fun x _ => codes_text x
  have htext : ifGiven ms "text" TextNode.ofJson = .ok c.text :=
    ifGiven_eq hms (by simp [Cell.toJson, List.lookup_append]) fun t ht => codes_textNode (htext t ht)
  have himage : ifGiven ms "image" ImageNode.ofJson = .ok c.image :=
    ifGiven_eq hms (by simp [Cell.toJson, List.lookup_append]) fun i _ => codes_imageNode i
  have hlink : ifGiven ms "link_url_data_ref" asText = .ok c.linkUrlDataRef :=
    ifGiven_eq hms (by simp [Cell.toJson, List.lookup_append]) fun x _ => codes_text x
  unfold Cell.ofJson
  rw [recordMembers_object hms, ok_bind, hwidth, ok_bind, hpadding, ok_bind, hbackground, ok_bind, htext, ok_bind,
    himage, ok_bind, hlink, ok_bind]
  rfl

theorem codes_row {r : Row Float} (h : r.Finite) : Codes Row.toJson Row.ofJson r := by
  obtain ⟨ms, hms⟩ : ∃ ms, r.toJson = object ms := ⟨_, rfl⟩
  refine ⟨Json.noConfusion, ?_⟩
  have hheight : required ms "height" asNumber = .ok r.height :=
    required_eq hms (by simp [Row.toJson]) (codes_number h.1)
  have hcells : ifGiven ms "cells" (asList Cell.ofJson) = .ok r.cells :=
    ifGiven_eq hms (by simp [Row.toJson]) fun cells hcells => codes_list fun c hc => codes_cell (h.2 cells hcells c hc)
  unfold Row.ofJson
  rw [recordMembers_object hms, ok_bind, hheight, ok_bind, hcells, ok_bind]
  rfl

theorem codes_layer {l : Layer Float} (h : l.Finite) : Codes Layer.toJson Layer.ofJson l := by
  obtain ⟨ms, hms⟩ : ∃ ms, l.toJson = object ms := ⟨_, rfl⟩
  refine ⟨Json.noConfusion, ?_⟩
  have hrows : ifGiven ms "rows" (asList Row.ofJson) = .ok l.rows :=
    ifGiven_eq hms (by simp [Layer.toJson]) fun rows hrows => codes_list fun r hr => codes_row (h rows hrows r hr)
  unfold Layer.ofJson
  rw [recordMembers_object hms, ok_bind, hrows, ok_bind]
  rfl

/-- **A layout with finite numbers is read back.** -/
theorem codes_layout {l : Layout Float} (h : l.Finite) : Codes Layout.toJson Layout.ofJson l := by
  obtain ⟨ms, hms⟩ : ∃ ms, l.toJson = object ms := ⟨_, rfl⟩
  refine ⟨Json.noConfusion, ?_⟩
  have hsize : required ms "size" SizeClass.ofJson = .ok l.size :=
    required_eq hms (by simp [Layout.toJson]) (codes_tag l.size.ofName_name)
  have hstyles : required ms "styles" Styles.ofJson = .ok l.styles :=
    required_eq hms (by simp [Layout.toJson]) (codes_styles l.styles)
  have hlayers : required ms "layers" (asList Layer.ofJson) = .ok l.layers :=
    required_eq hms (by simp [Layout.toJson]) (codes_list fun layer hlayer => codes_layer (h layer hlayer))
  unfold Layout.ofJson
  rw [recordMembers_object hms, ok_bind, hsize, ok_bind, hstyles, ok_bind, hlayers, ok_bind]
  rfl

/-! ## §5. The whole -/

namespace Draft

/-- **A definition is read from its members**, whatever `id` may stand among them. -/
theorem ofJson_eq {d : Draft Float} (hfinite : d.Finite) (htyped : d.Typed) {json : Json} {ms : List (String × Json)}
    (hms : json = object ms) (hsame : ∀ name ≠ "id", json.get? name = d.toJson.get? name) :
    Draft.ofJson json = .ok d := by
  -- none of the names is the one of the id, so that each finds what it finds without the id
  have hname : required ms "name" asText = .ok d.name :=
    required_eq hms (by rw [hsame _ (by decide)]; simp [toJson, members]) (codes_text d.name)
  have hdescription : ifGiven ms "description" asText = .ok d.description :=
    ifGiven_eq hms (by rw [hsame _ (by decide)]; simp [toJson, members, List.lookup_append]) fun x _ => codes_text x
  have hmodified : ifGiven ms "content_last_modified" asDate = .ok d.contentLastModified :=
    ifGiven_eq hms (by rw [hsame _ (by decide)]; simp [toJson, members, List.lookup_append]) fun t ht =>
      codes_date (htyped.2 t ht)
  have hversion : ifGiven ms "version" asWhole = .ok d.version :=
    ifGiven_eq hms (by rw [hsame _ (by decide)]; simp [toJson, members, List.lookup_append]) fun n hn =>
      codes_whole (htyped.1 n hn)
  have hdata : required ms "data" (asTable asText) = .ok d.data :=
    required_eq hms (by rw [hsame _ (by decide)]; simp [toJson, members, List.lookup_append])
      (codes_table fun m _ => codes_text m.2)
  have hdefault : ifGiven ms "default_layout" asText = .ok d.defaultLayout :=
    ifGiven_eq hms (by rw [hsame _ (by decide)]; simp [toJson, members, List.lookup_append]) fun x _ => codes_text x
  have hthumbnail : ifGiven ms "thumbnail_layout" asText = .ok d.thumbnailLayout :=
    ifGiven_eq hms (by rw [hsame _ (by decide)]; simp [toJson, members, List.lookup_append]) fun x _ => codes_text x
  have horder : ifGiven ms "layout_display_order" (asList asText) = .ok d.layoutDisplayOrder :=
    ifGiven_eq hms (by rw [hsame _ (by decide)]; simp [toJson, members, List.lookup_append]) fun names _ =>
      codes_list fun x _ => codes_text x
  have hlayouts : required ms "layouts" (asTable Layout.ofJson) = .ok d.layouts :=
    required_eq hms (by rw [hsame _ (by decide)]; simp [toJson, members, List.lookup_append])
      (codes_table fun m hm => codes_layout (hfinite m hm))
  unfold Draft.ofJson
  rw [recordMembers_object hms, ok_bind, hname, ok_bind, hdescription, ok_bind, hmodified, ok_bind, hversion, ok_bind,
    hdata, ok_bind, hdefault, ok_bind, hthumbnail, ok_bind, horder, ok_bind, hlayouts, ok_bind]
  rfl

end Draft
end HomeWidget
