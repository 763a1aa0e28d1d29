import HomeWidget.Proofs.Definition.Required
import HomeWidget.Proofs.Definition.Sound
import HomeWidget.Proofs.Json.Double
import HomeWidget.Proofs.Json.RoundTrip

/-!
# Definitions read back from their texts

A written definition can be read back as JSON: its records name each member once, its numbers are read from their
numerals, and its parts are not nested deeply. The check for required properties finds no gap in it, and each of its
parts is decoded as it was. This holds for its document with an id and without, and for every definition that was ever
read, restricted or not.

Main results: `Draft.readable_toJson`, `Draft.readBytes_toText`, `Draft.read_written`.
-/
namespace HomeWidget

open Json

/-! ## §1. Numbers -/

/-- A whole number of 64 bits is read back as it is written. -/
theorem Json.faithful_whole {n : Int} (h : -2 ^ 63 ≤ n ∧ n < 2 ^ 63) : (Number.whole n).Faithful :=
  ⟨isNumeral_whole n, ofText?_whole h.1 (by omega)⟩

/-- A finite double is read back from the shortest decimal that names it. -/
theorem Json.faithful_double {x : Float} (h : x.isFinite = true) : (Number.double x).Faithful := by
  have hwrite : (Number.double x).write = Shortest.write x := if_pos h
  unfold Number.Faithful
  rw [hwrite]
  exact ⟨isNumeral_double h, ofText?_double h⟩

/-- A finite number can be read back at any depth. -/
theorem readable_ofFloat (room : Nat) {x : Float} (h : x.isFinite = true) : Readable room (ofFloat x) := by
  have hwrite : ofFloat x = number (.double x) := if_pos h
  rw [hwrite]
  exact .number room (faithful_double h)

/-! ## §2. Members -/

/-- Members with some of these names, in their order, and with values that can be read back. -/
structure Fields (room : Nat) (names : List String) (members : List (String × Json)) : Prop where
  names : (Members.names members).Sublist names
  values : ∀ m ∈ members, Readable room m.2

namespace Fields

variable {α : Type} {room : Nat}

theorem one (name : String) {value : Json} (h : Readable room value) : Fields room [name] [(name, value)] where
  names := List.Sublist.refl _
  values := fun m hm => by
    rw [List.mem_singleton.1 hm]
    exact h

theorem option (name : String) {value : Option α} {write : α → Json} (h : ∀ x ∈ value, Readable room (write x)) :
    Fields room [name] (member? name value write) := by
  cases value with
  | none => exact ⟨List.nil_sublist _, fun m hm => by cases hm⟩
  | some x => exact one name (h x rfl)

theorem append {names names' : List String} {members members' : List (String × Json)} (h : Fields room names members)
    (h' : Fields room names' members') : Fields room (names ++ names') (members ++ members') where
  names := by
    unfold Members.names
    rw [List.map_append]
    exact h.names.append h'.names
  values := fun m hm => by
    rcases List.mem_append.1 hm with hm | hm
    · exact h.values m hm
    · exact h'.values m hm

/-- Members whose names differ make an object. -/
theorem readable {names : List String} {members : List (String × Json)} (h : Fields room names members)
    (hnames : names.Nodup) : Readable (room + 1) (object members) :=
  .object (h.names.nodup hnames) h.values

end Fields

/-- An array takes one level more than its items. -/
theorem readable_list {α : Type} {room : Nat} {write : α → Json} {items : List α}
    (h : ∀ x ∈ items, Readable room (write x)) : Readable (room + 1) (Json.ofList write items) := by
  refine .array fun v hv => ?_
  obtain ⟨x, hx, rfl⟩ := List.mem_map.1 hv
  exact h x hx

/-- An object takes one level more than its values. -/
theorem readable_table {α : Type} {room : Nat} {write : α → Json} {t : Table α}
    (h : ∀ m ∈ t.entries, Readable room (write m.2)) : Readable (room + 1) (t.toJson write) := by
  refine .object ?_ fun v hv => ?_
  · -- writing the values leaves the names, of which a table has each once
    have hnames : Members.names (t.entries.map fun m => (m.1, write m.2)) = Members.names t.entries := by
      unfold Members.names
      rw [List.map_map]
      rfl
    show (Members.names (t.entries.map fun m => (m.1, write m.2))).Nodup
    rw [hnames]
    exact t.nodup
  · obtain ⟨m, hm, rfl⟩ := List.mem_map.1 hv
    exact h m hm

/-! ## §3. Records -/

theorem readable_colorStyle (room : Nat) (s : ColorStyle) : Readable (room + 1) s.toJson :=
  ((Fields.option "label" fun x _ => .string room x).append (.one "color" (.string room s.color))).readable (by decide)

theorem readable_fontStyle (room : Nat) (s : FontStyle) : Readable (room + 1) s.toJson :=
  ((Fields.option "label" fun x _ => .string room x).append
    (.option "family" fun x _ => .string room x)).readable (by decide)

/-- Styles are two levels above a style. -/
theorem readable_styles (room : Nat) (s : Styles) : Readable (room + 3) s.toJson :=
  ((Fields.option "colors" fun _ _ => readable_table fun m _ => readable_colorStyle room m.2).append
    (.option "fonts" fun _ _ => readable_table fun m _ => readable_fontStyle room m.2)).readable (by decide)

/-- A text is one level deep. -/
theorem readable_textNode (room : Nat) {t : TextNode Float} (h : t.Finite) : Readable (room + 1) t.toJson :=
  ((Fields.option "string" fun x _ => .string room x).append (.option "data_ref" fun x _ => .string room x)
    |>.append (.option "color_style" fun x _ => .string room x)
    |>.append (.option "font_style" fun x _ => .string room x)
    |>.append (.option "size" fun x hx => readable_ofFloat room (h.1 x hx))
    |>.append (.option "weight" fun w _ => .string room w.name)
    |>.append (.option "justification" fun j _ => .string room j.name)
    |>.append (.option "min_scale_factor" fun x hx => readable_ofFloat room (h.2 x hx))).readable (by decide)

theorem readable_imageNode (room : Nat) (i : ImageNode) : Readable (room + 1) i.toJson :=
  ((Fields.option "data_ref" fun x _ => .string room x).append (.option "url" fun x _ => .string room x)
    |>.append (.option "mask" fun m _ => .string room m.name)).readable (by decide)

/-- A cell is one level above its text. -/
theorem readable_cell (room : Nat) {c : Cell Float} (h : c.Finite) : Readable (room + 2) c.toJson :=
  ((Fields.one "width" (readable_ofFloat (room + 1) h.1)).append
      (.option "padding" fun x hx => readable_ofFloat (room + 1) (h.2.1 x hx))
    |>.append (.option "background_color_style" fun x _ => .string (room + 1) x)
    |>.append (.option "text" fun t ht => readable_textNode room (h.2.2 t ht))
    |>.append (.option "image" fun i _ => readable_imageNode room i)
    |>.append (.option "link_url_data_ref" fun x _ => .string (room + 1) x)).readable (by decide)

/-- A row is two levels above its cells, one for the array, and a layer two above its rows. -/
theorem readable_row (room : Nat) {r : Row Float} (h : r.Finite) : Readable (room + 4) r.toJson :=
  ((Fields.one "height" (readable_ofFloat (room + 3) h.1)).append
    (.option "cells" fun cells hcells => readable_list fun c hc => readable_cell room (h.2 cells hcells c hc))).readable
      (by decide)

theorem readable_layer (room : Nat) {l : Layer Float} (h : l.Finite) : Readable (room + 6) l.toJson :=
  (Fields.option "rows" fun rows hrows => readable_list fun r hr => readable_row room (h rows hrows r hr)).readable
    (by decide)

/-- A layout is two levels above its layers, which makes eight in all. -/
theorem readable_layout (room : Nat) {l : Layout Float} (h : l.Finite) : Readable (room + 8) l.toJson :=
  ((Fields.one "size" (.string (room + 7) l.size.name)).append (.one "styles" (readable_styles (room + 4) l.styles))
    |>.append (.one "layers" (readable_list fun layer hlayer => readable_layer room (h layer hlayer)))).readable
      (by decide)

/-! ## §4. The whole -/

namespace Draft

/-- The members of a written definition, among which there is no id. -/
theorem fields_members (room : Nat) {d : Draft Float} (h : d.Writable) :
    Fields (room + 9) (["name"] ++ ["description"] ++ ["content_last_modified"] ++ ["version"] ++ ["data"] ++
      ["default_layout"] ++ ["thumbnail_layout"] ++ ["layout_display_order"] ++ ["layouts"]) d.members :=
  (Fields.one "name" (.string (room + 9) d.name)).append (.option "description" fun x _ => .string (room + 9) x)
    |>.append (.option "content_last_modified" fun t _ => .string (room + 9) t.write)
    |>.append (.option "version" fun n hn => .number (room + 9) (faithful_whole (h.2.1 n hn)))
    |>.append (.one "data" (readable_table fun m _ => .string (room + 8) m.2))
    |>.append (.option "default_layout" fun x _ => .string (room + 9) x)
    |>.append (.option "thumbnail_layout" fun x _ => .string (room + 9) x)
    |>.append (.option "layout_display_order" fun _ _ => readable_list fun x _ => .string (room + 8) x)
    |>.append (.one "layouts" (readable_table fun m hm => readable_layout room (h.1 m hm)))

/-- **A written definition can be read back as JSON**. -/
theorem readable_toJson {d : Draft Float} (h : d.Writable) : Readable maxDepth d.toJson :=
  (fields_members 117 h).readable (by decide)

/-- **A written definition with an id can be read back as JSON.** -/
theorem readable_widget {d : Draft Float} (h : d.Writable) (id : String) : Readable maxDepth (Widget.mk id d).toJson :=
  ((Fields.one "id" (.string 126 id)).append (fields_members 117 h)).readable (by decide)

/-- A definition is read from any object that has its members, among which an id may stand. -/
theorem read_of_members {d : Draft Float} (h : d.Writable) {json : Json} {ms : List (String × Json)}
    (hms : json = object ms) (hsame : ∀ name ≠ "id", json.get? name = d.toJson.get? name) :
    Draft.read json = .ok d := by
  have hobject : ¬json.members?.isNone = true := by
    rw [hms]
    exact Bool.noConfusion
  -- the two passes, one after the other: the check for gaps, and the decoding
  unfold Draft.read
  rw [if_neg hobject, Required.check_eq_ok h.1 hsame, ofJson_eq h.1 h.2 hms hsame]
  rfl

/-- **A document is read back from its text**, whatever else stands in it under the name `id`. -/
theorem readBytes_of_members {d : Draft Float} (h : d.Writable) {json : Json} (hreadable : Readable maxDepth json)
    {ms : List (String × Json)} (hms : json = object ms)
    (hsame : ∀ name ≠ "id", json.get? name = d.toJson.get? name) :
    Draft.readBytes (Utf8.ofString json.toText) = .ok d := by
  unfold Draft.readBytes
  rw [parseBytes?_toText hreadable]
  exact read_of_members h hms hsame

/-- **A written definition is decoded as it was**. -/
theorem readBytes_toText {d : Draft Float} (h : d.Writable) :
    Draft.readBytes (Utf8.ofString d.toJson.toText) = .ok d :=
  readBytes_of_members h (readable_toJson h) rfl fun _ _ => rfl

/-- **A written definition is decoded as it was with an id too**, whatever the id is. -/
theorem readBytes_widget {d : Draft Float} (h : d.Writable) (id : String) :
    Draft.readBytes (Utf8.ofString (Widget.mk id d).toJson.toText) = .ok d := by
  refine readBytes_of_members h (readable_widget h id) rfl fun name hname => ?_
  show (("id", Json.string id) :: d.members).lookup name = d.members.lookup name
  rw [Members.lookup_cons, if_neg hname]

/-! ## §5. Restricted definitions -/

/-- What can be written can be written without its extra large layouts. -/
theorem writable_restrict {d : Draft Float} (h : d.Writable) (supportsExtraLarge : Bool) :
    (d.restrict supportsExtraLarge).Writable := by
  unfold restrict
  split
  · exact h
  · exact ⟨fun m hm => h.1 m (List.mem_of_mem_filter hm), h.2⟩

/-- **Decoding undoes writing**: for every definition whose numbers are finite, with any id and without one; and every
definition that was decoded, restricted or not, is such a definition. -/
theorem read_written :
    (∀ d : Draft Float, d.Finite → d.Typed → ∀ id : String,
      Draft.readBytes (Utf8.ofString (Widget.mk id d).toJson.toText) = .ok d ∧
        Draft.readBytes (Utf8.ofString d.toJson.toText) = .ok d) ∧
    ∀ (bytes : Bytes) (d : Draft Float), Draft.readBytes bytes = .ok d → ∀ (supportsExtraLarge : Bool) (id : String),
      Draft.readBytes (Utf8.ofString (Widget.mk id (d.restrict supportsExtraLarge)).toJson.toText)
          = .ok (d.restrict supportsExtraLarge) ∧
        Draft.readBytes (Utf8.ofString (d.restrict supportsExtraLarge).toJson.toText)
          = .ok (d.restrict supportsExtraLarge) := by
  constructor
  · intro d hfinite htyped id
    exact ⟨readBytes_widget ⟨hfinite, htyped⟩ id, readBytes_toText ⟨hfinite, htyped⟩⟩
  · -- what was read has the ranges of its types, and taking layouts away keeps them
    intro bytes d h supportsExtraLarge id
    have hwritable := writable_restrict (writable_of_readBytes h) supportsExtraLarge
    exact ⟨readBytes_widget hwritable id, readBytes_toText hwritable⟩

/-- A definition with two layouts, one of them extra large, and with numbers, a version and a date. -/
def board : Draft Float where
  name := "Board"
  description := none
  contentLastModified := some ⟨19783, 45000, 0⟩
  version := some (-3)
  data := ⟨[("title", "Rain"), ("link", "https://example.com/?a=\"b\"")], by decide⟩
  defaultLayout := some "wide"
  thumbnailLayout := none
  layoutDisplayOrder := some ["wide", "small"]
  layouts := ⟨[
    ("wide", ⟨.extraLarge, ⟨none, none⟩, []⟩),
    ("small", ⟨.small, ⟨none, none⟩,
      [⟨some [⟨12.5, some [⟨12.0, some 0.1, none,
        some ⟨some "Rain", none, none, none, some 1e23, some .unknown, none, none⟩, none, none⟩]⟩]⟩]⟩)], by decide⟩

/-- The two halves at one definition: it is read back, and so is what is left of it without its extra large layout. -/
theorem read_written_board : board.Finite ∧ board.Typed ∧
    Draft.readBytes (Utf8.ofString (Widget.mk "https://example.com/w.json" board).toJson.toText) = .ok board ∧
    Draft.readBytes (Utf8.ofString (board.restrict false).toJson.toText) = .ok (board.restrict false) := by
  have hfinite : board.Finite := by decide +kernel
  have htyped : board.Typed := by decide +kernel
  have hboard := read_written.1 board hfinite htyped "https://example.com/w.json"
  exact ⟨hfinite, htyped, hboard.1, (read_written.2 _ board hboard.1 false "").2⟩

end Draft
end HomeWidget
