import HomeWidget.Proofs.Definition.Sound

/-!
# The order of what is read

A document is read by the names of its members, so that their order does not matter in a record. In tables it does: the
data, the layouts, the colours and the fonts of a definition stand in the order in which the document has them. Each of
these tables is read from an object, member by member, and a document names no member twice, so that nothing moves.

Main results: `asTable_eq_ok`, `Layout.inOrder_of_ofJson`, `Draft.inOrder_of_read`.
-/
namespace HomeWidget

open Decode Json

/-! ## §1. Tables -/

section
variable {α : Type}

/-- The value is an object, and the table has the names of its members, in their order. -/
def InOrder (value : Option Json) (t : Table α) : Prop :=
  ∃ ms, value = some (.object ms) ∧ t.names = Members.names ms

theorem measured_of_mem {ms : List (String × Json)} (h : (object ms).Measured) {m : String × Json} (hm : m ∈ ms) :
    m.2.Measured := by
  cases h with
  | object _ hmembers => exact hmembers m hm

/-- Members are read one by one, each under its name. -/
theorem mapM_members {read : Json → Decoded α} {ms : List (String × Json)} {entries : List (String × α)}
    (h : ms.mapM (fun m => do pure (m.1, ← read m.2)) = .ok entries) :
    Members.names entries = Members.names ms ∧ ∀ m ∈ ms, ∃ x, read m.2 = .ok x ∧ (m.1, x) ∈ entries := by
  induction ms generalizing entries with
  | nil =>
    obtain rfl := Except.ok.inj h
    exact ⟨rfl, fun m hm => absurd hm List.not_mem_nil⟩
  | cons m ms ih =>
    rw [List.mapM_cons] at h
    obtain ⟨entry, hentry, h⟩ := bind_eq_ok h
    obtain ⟨x, hx, hpair⟩ := bind_eq_ok hentry
    obtain ⟨rest, hrest, h⟩ := bind_eq_ok h
    obtain rfl := Except.ok.inj h
    obtain rfl := Except.ok.inj hpair
    obtain ⟨hnames, hread⟩ := ih hrest
    refine ⟨by rw [Members.names_cons, Members.names_cons, hnames], fun m' hm' => ?_⟩
    rcases List.mem_cons.1 hm' with rfl | hm'
    · exact ⟨x, hx, List.mem_cons_self⟩
    · obtain ⟨y, hy, hmem⟩ := hread m' hm'
      exact ⟨y, hy, List.mem_cons_of_mem _ hmem⟩

/-- **A table has the members of its object**, each read for itself, in their order. -/
theorem asTable_eq_ok {read : Json → Decoded α} {json : Json} {t : Table α} (hjson : json.Measured)
    (h : asTable read json = .ok t) :
    ∃ ms, json = .object ms ∧ t.names = Members.names ms
      ∧ ∀ m ∈ ms, ∃ x, read m.2 = .ok x ∧ t.get? m.1 = some x := by
  cases hjson with
  | @object ms hnodup _ =>
    obtain ⟨entries, hentries, h⟩ := bind_eq_ok h
    obtain rfl := Except.ok.inj h
    obtain ⟨hnames, hread⟩ := mapM_members hentries
    have hnodup : (Members.names entries).Nodup := hnames ▸ hnodup
    have hentries := Table.entries_ofList hnodup
    refine ⟨ms, rfl, ?_, fun m hm => ?_⟩
    · unfold Table.names
      rw [hentries, hnames]
    · obtain ⟨x, hx, hmem⟩ := hread m hm
      refine ⟨x, hx, ?_⟩
      unfold Table.get?
      rw [hentries]
      exact (Members.lookup_eq_some_iff hnodup).2 hmem
  | _ => cases h

/-- A table has the order of the object that it is read from. -/
theorem inOrder_of_asTable {read : Json → Decoded α} {json : Json} {t : Table α} (hjson : json.Measured)
    (h : asTable read json = .ok t) : InOrder (some json) t := by
  obtain ⟨ms, rfl, hnames, -⟩ := asTable_eq_ok hjson h
  exact ⟨ms, rfl, hnames⟩

/-- A table that may be absent has the order of the object that it is read from. -/
theorem inOrder_of_ifGiven {ms : List (String × Json)} (hms : MeasuredMembers ms) {name : String}
    {read : Json → Decoded α} {t? : Option (Table α)} (h : ifGiven ms name (asTable read) = .ok t?) :
    ∀ t ∈ t?, InOrder (ms.lookup name) t := by
  rintro t rfl
  obtain ⟨json, hjson, ht⟩ := ifGiven_eq_ok h
  rw [hjson]
  exact inOrder_of_asTable (measured_lookup hms hjson) ht

end

/-! ## §2. Layouts and definitions -/

/-- The colours and the fonts of a layout are in the order of the value that it was read from. -/
def Layout.InOrder (json : Json) (l : Layout Float) : Prop :=
  ∃ ms styles parts, recordMembers ["size", "styles", "layers"] json = .ok ms ∧ ms.lookup "styles" = some styles
    ∧ recordMembers ["colors", "fonts"] styles = .ok parts
    ∧ (∀ t ∈ l.styles.colors, HomeWidget.InOrder (parts.lookup "colors") t)
    ∧ ∀ t ∈ l.styles.fonts, HomeWidget.InOrder (parts.lookup "fonts") t

/-- A layout has its colours and its fonts in the order of the document. -/
theorem Layout.inOrder_of_ofJson {json : Json} {l : Layout Float} (hjson : json.Measured)
    (h : Layout.ofJson json = .ok l) : Layout.InOrder json l := by
  obtain ⟨ms, hms, h⟩ := bind_eq_ok h
  obtain ⟨size, -, h⟩ := bind_eq_ok h
  obtain ⟨styles, hstyles, h⟩ := bind_eq_ok h
  obtain ⟨layers, -, h⟩ := bind_eq_ok h
  obtain rfl := Except.ok.inj h
  obtain ⟨value, hvalue, hstyles⟩ := required_eq_ok hstyles
  have hmembers := sound_recordMembers json ms hjson hms
  obtain ⟨parts, hparts, hstyles⟩ := bind_eq_ok hstyles
  obtain ⟨colors, hcolors, hstyles⟩ := bind_eq_ok hstyles
  obtain ⟨fonts, hfonts, hstyles⟩ := bind_eq_ok hstyles
  obtain rfl := Except.ok.inj hstyles
  have hinner := sound_recordMembers value parts (measured_lookup hmembers hvalue) hparts
  exact ⟨ms, value, parts, hms, hvalue, hparts, inOrder_of_ifGiven hinner hcolors, inOrder_of_ifGiven hinner hfonts⟩

namespace Draft

/-- The data and the layouts of a definition are in the order of the value that it was read from, and so are the colours
and the fonts of each layout. -/
def InOrder (root : Json) (d : Draft Float) : Prop :=
  HomeWidget.InOrder (root.get? "data") d.data
    ∧ ∃ ms, root.get? "layouts" = some (.object ms) ∧ d.layouts.names = Members.names ms
      ∧ ∀ m ∈ ms, ∃ l, d.layouts.get? m.1 = some l ∧ Layout.InOrder m.2 l

/-- Only an object is read as a definition. -/
theorem exists_object_of_read {root : Json} {d : Draft Float} (h : read root = .ok d) : ∃ ms, root = .object ms := by
  cases root with
  | object ms => exact ⟨ms, rfl⟩
  | _ => cases h

/-- **The order of a table is seen**: what is read has the names of its tables in the order of their objects. -/
theorem inOrder_of_read {root : Json} {d : Draft Float} (hroot : root.Measured) (hread : read root = .ok d) :
    d.InOrder root := by
  obtain ⟨members, rfl⟩ := exists_object_of_read hread
  obtain ⟨ms, hms, h⟩ := bind_eq_ok (ofJson_of_read hread)
  obtain rfl : members = ms := Except.ok.inj hms
  have hmembers : MeasuredMembers members := fun _ => measured_of_mem hroot
  obtain ⟨name, -, h⟩ := bind_eq_ok h
  obtain ⟨description, -, h⟩ := bind_eq_ok h
  obtain ⟨modified, -, h⟩ := bind_eq_ok h
  obtain ⟨version, -, h⟩ := bind_eq_ok h
  obtain ⟨data, hdata, h⟩ := bind_eq_ok h
  obtain ⟨defaultLayout, -, h⟩ := bind_eq_ok h
  obtain ⟨thumbnail, -, h⟩ := bind_eq_ok h
  obtain ⟨order, -, h⟩ := bind_eq_ok h
  obtain ⟨layouts, hlayouts, h⟩ := bind_eq_ok h
  obtain rfl := Except.ok.inj h
  obtain ⟨data', hdata', hdata⟩ := required_eq_ok hdata
  obtain ⟨layouts', hlayouts', hlayouts⟩ := required_eq_ok hlayouts
  have hmeasured := measured_lookup hmembers hlayouts'
  obtain ⟨ms, rfl, hnames, hread⟩ := asTable_eq_ok hmeasured hlayouts
  refine ⟨?_, ms, hlayouts', hnames, fun m hm => ?_⟩
  · show HomeWidget.InOrder (members.lookup "data") data
    rw [hdata']
    exact inOrder_of_asTable (measured_lookup hmembers hdata') hdata
  · obtain ⟨l, hl, hget⟩ := hread m hm
    exact ⟨l, hget, Layout.inOrder_of_ofJson (measured_of_mem hmeasured hm) hl⟩

end Draft
end HomeWidget
