import HomeWidget.Definition.Read
import HomeWidget.Proofs.Definition.Codec
import HomeWidget.Proofs.Json.Measured
import HomeWidget.Proofs.Number.Whole

/-!
# Definitions that are read can be written

The numbers of a definition that was read are finite, its version has 64 bits and its date is a date, since they come
from values that are so. The proof follows the records: each keeps what its parts have.

Main results: `Sound`, `Draft.sound_ofJson`, `Draft.writable_of_readBytes`.
-/
namespace HomeWidget

open Decode Json

/-! ## §1. Values -/

/-- Whatever is read from a measured value has the property. -/
def Sound {α : Type} (read : Json → Decoded α) (P : α → Prop) : Prop :=
  ∀ json x, json.Measured → read json = .ok x → P x

section
variable {α β : Type} {P : α → Prop} {read : Json → Decoded α}

/-- A reading in two steps comes through if both of them do. -/
theorem bind_eq_ok {x : Decoded α} {f : α → Decoded β} {y : β} (h : (x >>= f) = .ok y) :
    ∃ a, x = .ok a ∧ f a = .ok y := by
  cases x with
  | error e => cases h
  | ok a => exact ⟨a, rfl, h⟩

/-- A number that is read from a measured value is finite. -/
theorem sound_number : Sound asNumber (·.isFinite = true) := by
  intro json x hjson h
  cases json with
  | number n =>
    rw [← Except.ok.inj h]
    cases hjson with
    | number hn =>
      -- a whole number of 64 bits is far below the largest double
      cases n with
      | whole i => exact Rounding.isFinite_ofInt hn.1 hn.2
      | double x => exact hn
  | _ => cases h

/-- A version that is read has 64 bits. -/
theorem sound_whole : Sound asWhole fun n => -2 ^ 63 ≤ n ∧ n < 2 ^ 63 := by
  intro json n _ h
  unfold asWhole at h
  split at h
  · split at h
    next hn => exact Except.ok.inj h ▸ hn
    next => cases h
  · cases h

/-- A date that is read is of valid range. -/
theorem sound_date : Sound asDate (·.Valid) := by
  intro json t _ h
  obtain ⟨text, -, h⟩ := bind_eq_ok h
  split at h
  next ht => exact Except.ok.inj h ▸ Timestamp.valid_of_ofText? ht
  next => cases h

/-- What holds of each value that is read holds of all. -/
theorem mapM_sound {γ : Type} {f : γ → Decoded α} {items : List γ} (hf : ∀ x ∈ items, ∀ y, f x = .ok y → P y)
    {ys : List α} (h : items.mapM f = .ok ys) : ∀ y ∈ ys, P y := by
  induction items generalizing ys with
  | nil =>
    rw [← Except.ok.inj h]
    intro y hy
    cases hy
  | cons x items ih =>
    rw [List.mapM_cons] at h
    obtain ⟨y, hy, h⟩ := bind_eq_ok h
    obtain ⟨rest, hrest, h⟩ := bind_eq_ok h
    rw [← Except.ok.inj h]
    intro z hz
    rcases List.mem_cons.1 hz with rfl | hz
    · exact hf x List.mem_cons_self z hy
    · exact ih (fun w hw => hf w (List.mem_cons_of_mem _ hw)) hrest z hz

/-- What holds of each item that is read holds of a list. -/
theorem sound_list (hread : Sound read P) : Sound (asList read) fun xs => ∀ x ∈ xs, P x := by
  intro json xs hjson h
  cases hjson with
  | array hitems => exact mapM_sound (fun v hv x hx => hread v x (hitems v hv) hx) h
  | _ => cases h

/-- What holds of each value that is read holds of a table. -/
theorem sound_table (hread : Sound read P) : Sound (asTable read) fun t => ∀ m ∈ t.entries, P m.2 := by
  intro json t hjson h
  cases hjson with
  | @object members _ hmembers =>
    obtain ⟨ms, hms, h⟩ := bind_eq_ok h
    rw [← Except.ok.inj h]
    have hvalues : ∀ m ∈ ms, P m.2 := by
      refine @mapM_sound _ (fun m : String × α => P m.2) _ _ _ ?_ _ hms
      intro member hmember m hm
      obtain ⟨value, hvalue, hm⟩ := bind_eq_ok hm
      rw [← Except.ok.inj hm]
      exact hread member.2 value (hmembers member hmember) hvalue
    exact fun m hm => hvalues m (Table.mem_entries_ofList hm)
  | _ => cases h

/-! ## §2. Members -/

/-- The members are measured. -/
def MeasuredMembers (ms : List (String × Json)) : Prop := ∀ m ∈ ms, m.2.Measured

/-- The members of a record are measured if the record is, also one that is written as an array. -/
theorem sound_recordMembers {declared : List String} : Sound (recordMembers declared) MeasuredMembers := by
  intro json ms hjson h
  cases hjson with
  | object _ hmembers => exact Except.ok.inj h ▸ hmembers
  | @array items hitems =>
    -- a record that is written as an array: its items are given the declared names
    have h : (if items.length ≤ declared.length then Except.ok (declared.zip items)
      else Except.error Mismatch.tooManyItems) = .ok ms := h
    split at h
    · exact Except.ok.inj h ▸ fun m hm => hitems m.2 (List.of_mem_zip hm).2
    · cases h
  | _ => cases h

theorem measured_lookup {ms : List (String × Json)} (hms : MeasuredMembers ms) {name : String} {json : Json}
    (h : ms.lookup name = some json) : json.Measured :=
  hms (name, json) (Members.mem_of_lookup h)

variable {ms : List (String × Json)} {name : String}

/-- A required member that was read is there. -/
theorem required_eq_ok {x : α} (h : required ms name read = .ok x) :
    ∃ json, ms.lookup name = some json ∧ read json = .ok x := by
  unfold required at h
  split at h
  next json hjson => exact ⟨json, hjson, h⟩
  next => cases h

/-- An optional member that was read to a value is there. -/
theorem ifGiven_eq_ok {x : α} (h : ifGiven ms name read = .ok (some x)) :
    ∃ json, ms.lookup name = some json ∧ read json = .ok x := by
  unfold ifGiven at h
  split at h
  next => cases h
  next json _ hjson =>
    cases hx : read json with
    | error e =>
      rw [hx] at h
      cases h
    | ok y =>
      rw [hx] at h
      obtain rfl := Option.some.inj (Except.ok.inj h)
      exact ⟨json, hjson, hx⟩
  next => cases h

/-- A member that must be there is sound if its reading is. -/
theorem required_sound (hread : Sound read P) (hms : MeasuredMembers ms) {x : α}
    (h : required ms name read = .ok x) : P x := by
  obtain ⟨json, hjson, hx⟩ := required_eq_ok h
  exact hread json x (measured_lookup hms hjson) hx

/-- A member that may be absent is sound if its reading is. -/
theorem ifGiven_sound (hread : Sound read P) (hms : MeasuredMembers ms) {value : Option α}
    (h : ifGiven ms name read = .ok value) : ∀ x ∈ value, P x := by
  rintro x rfl
  obtain ⟨json, hjson, hx⟩ := ifGiven_eq_ok h
  exact hread json x (measured_lookup hms hjson) hx

end

/-! ## §3. The parts of a definition -/

/-- A text that is read has finite numbers, and so have the records that hold it, up to the layout. -/
theorem sound_textNode : Sound TextNode.ofJson TextNode.Finite := by
  intro json t hjson h
  obtain ⟨ms, hms, h⟩ := bind_eq_ok h
  obtain ⟨string, -, h⟩ := bind_eq_ok h
  obtain ⟨dataRef, -, h⟩ := bind_eq_ok h
  obtain ⟨colorStyle, -, h⟩ := bind_eq_ok h
  obtain ⟨fontStyle, -, h⟩ := bind_eq_ok h
  obtain ⟨size, hsize, h⟩ := bind_eq_ok h
  obtain ⟨weight, -, h⟩ := bind_eq_ok h
  obtain ⟨justification, -, h⟩ := bind_eq_ok h
  obtain ⟨scale, hscale, h⟩ := bind_eq_ok h
  have hmembers := sound_recordMembers json ms hjson hms
  rw [← Except.ok.inj h]
  exact ⟨ifGiven_sound sound_number hmembers hsize, ifGiven_sound sound_number hmembers hscale⟩

theorem sound_cell : Sound Cell.ofJson Cell.Finite := by
  intro json c hjson h
  obtain ⟨ms, hms, h⟩ := bind_eq_ok h
  obtain ⟨width, hwidth, h⟩ := bind_eq_ok h
  obtain ⟨padding, hpadding, h⟩ := bind_eq_ok h
  obtain ⟨background, -, h⟩ := bind_eq_ok h
  obtain ⟨text, htext, h⟩ := bind_eq_ok h
  obtain ⟨image, -, h⟩ := bind_eq_ok h
  obtain ⟨link, -, h⟩ := bind_eq_ok h
  have hmembers := sound_recordMembers json ms hjson hms
  rw [← Except.ok.inj h]
  exact ⟨required_sound sound_number hmembers hwidth, ifGiven_sound sound_number hmembers hpadding,
    ifGiven_sound sound_textNode hmembers htext⟩

theorem sound_row : Sound Row.ofJson Row.Finite := by
  intro json r hjson h
  obtain ⟨ms, hms, h⟩ := bind_eq_ok h
  obtain ⟨height, hheight, h⟩ := bind_eq_ok h
  obtain ⟨cells, hcells, h⟩ := bind_eq_ok h
  have hmembers := sound_recordMembers json ms hjson hms
  rw [← Except.ok.inj h]
  exact ⟨required_sound sound_number hmembers hheight, ifGiven_sound (sound_list sound_cell) hmembers hcells⟩

theorem sound_layer : Sound Layer.ofJson Layer.Finite := by
  intro json l hjson h
  obtain ⟨ms, hms, h⟩ := bind_eq_ok h
  obtain ⟨rows, hrows, h⟩ := bind_eq_ok h
  rw [← Except.ok.inj h]
  exact ifGiven_sound (sound_list sound_row) (sound_recordMembers json ms hjson hms) hrows

/-- A layout that is read has finite numbers. -/
theorem sound_layout : Sound Layout.ofJson Layout.Finite := by
  intro json l hjson h
  obtain ⟨ms, hms, h⟩ := bind_eq_ok h
  obtain ⟨size, -, h⟩ := bind_eq_ok h
  obtain ⟨styles, -, h⟩ := bind_eq_ok h
  obtain ⟨layers, hlayers, h⟩ := bind_eq_ok h
  rw [← Except.ok.inj h]
  exact required_sound (sound_list sound_layer) (sound_recordMembers json ms hjson hms) hlayers

/-! ## §4. The whole -/

namespace Draft

/-- A definition that can be written so that it is read back: its numbers are finite, and its version and date are ones
that the format has. -/
def Writable (d : Draft Float) : Prop := d.Finite ∧ d.Typed

/-- **A definition that is decoded can be written.** -/
theorem sound_ofJson : Sound Draft.ofJson Writable := by
  intro json d hjson h
  obtain ⟨ms, hms, h⟩ := bind_eq_ok h
  obtain ⟨name, -, h⟩ := bind_eq_ok h
  obtain ⟨description, -, h⟩ := bind_eq_ok h
  obtain ⟨modified, hmodified, h⟩ := bind_eq_ok h
  obtain ⟨version, hversion, h⟩ := bind_eq_ok h
  obtain ⟨data, -, h⟩ := bind_eq_ok h
  obtain ⟨defaultLayout, -, h⟩ := bind_eq_ok h
  obtain ⟨thumbnail, -, h⟩ := bind_eq_ok h
  obtain ⟨order, -, h⟩ := bind_eq_ok h
  obtain ⟨layouts, hlayouts, h⟩ := bind_eq_ok h
  have hmembers := sound_recordMembers json ms hjson hms
  rw [← Except.ok.inj h]
  exact ⟨required_sound (sound_table sound_layout) hmembers hlayouts, ifGiven_sound sound_whole hmembers hversion,
    ifGiven_sound sound_date hmembers hmodified⟩

theorem of_mapError {α ε ε' : Type} {f : ε → ε'} {x : Except ε α} {y : α} (h : x.mapError f = .ok y) : x = .ok y := by
  cases x with
  | error e => cases h
  | ok a => exact congrArg Except.ok (Except.ok.inj h)

/-- What is read from a document is what its second pass decodes. -/
theorem ofJson_of_read {root : Json} {d : Draft Float} (h : read root = .ok d) : Draft.ofJson root = .ok d := by
  unfold Draft.read at h
  split at h
  · cases h
  · -- what the check finds ends the reading, and otherwise the parts decide
    cases hcheck : Required.check root with
    | error gap =>
      rw [hcheck] at h
      cases h
    | ok u =>
      rw [hcheck] at h
      exact of_mapError h

/-- **A definition that is read from bytes can be written.** -/
theorem writable_of_readBytes {bytes : Bytes} {d : Draft Float} (h : readBytes bytes = .ok d) : d.Writable := by
  unfold readBytes at h
  split at h
  next root hroot => exact sound_ofJson root d (measured_parseBytes? hroot) (ofJson_of_read h)
  next => cases h

end Draft
end HomeWidget
