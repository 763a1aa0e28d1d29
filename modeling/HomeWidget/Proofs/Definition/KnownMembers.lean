import HomeWidget.Proofs.Definition.Edits
import HomeWidget.Proofs.Definition.Order
import Mathlib.Logic.Relation

/-!
# Edits that reading does not see

Reading has two passes, and each of them looks at a record by asking it for the members that it knows. What a record
answers after an edit is known, and so the passes are followed from the inside out: the walk for what is required ends
with the same gap, and the decoding ends with the same value, or without one as before. What is `null` is skipped by the
walk where the decoding takes it for absent.

Main results: `Required.check_edit`, `overlooks_draft`, `Draft.read_edit`, `Draft.reads_known_members`.
-/
namespace HomeWidget

open Decode Json Shape

variable {shape : Shape} {slots : List (Slot Shape)} {s : Slot Shape} {v v' : Json}

/-! ## §1. The walk -/

namespace Required

/-- A check finds the same gaps after an edit. -/
def Overlooks (shape : Shape) (check : Path → Json → Except Gap Unit) : Prop :=
  ∀ path v v', Edit shape v v' → check path v = check path v'

variable {path : Path} {kind : Kind} {check : Path → Json → Except Gap Unit}

/-- An edit leaves the kind of a value as it is. -/
theorem admits_edit (kind : Kind) (h : Edit shape v v') : kind.admits v = kind.admits v' := by
  rcases h.kind with ⟨ms, ms', rfl, rfl⟩ | ⟨items, items', rfl, rfl⟩
  · cases kind <;> rfl
  · cases kind <;> rfl

/-- A property is looked for, and what comes next is given its value. -/
theorem property_bind_eq (owner : Json) (field : String) (next : Json → Except Gap Unit) :
    (property path owner field kind >>= next)
      = ((owner.get? field).filter kind.admits).elim (.error ⟨field, path⟩) next := by
  unfold property
  cases owner.get? field with
  | none => rfl
  | some value =>
    cases hkind : kind.admits value with
    | true =>
      rw [Option.filter_some_pos hkind]
      simp only [hkind, if_true]
      rfl
    | false =>
      rw [Option.filter_some_neg hkind]
      simp only [hkind]
      rfl

/-- A property is there before and after, or not, and what comes next is given values that agree. -/
theorem property_bind_congr {next next' : Json → Except Gap Unit} (h : Agrees s (v.get? s.name) (v'.get? s.name))
    (hnext : ∀ w w', Agrees s (some w) (some w') → next w = next' w') :
    (property path v s.name kind >>= next) = (property path v' s.name kind >>= next') := by
  rw [property_bind_eq, property_bind_eq]
  generalize v.get? s.name = x at h ⊢
  generalize v'.get? s.name = y at h ⊢
  cases h with
  | same =>
    cases hx : x.filter kind.admits with
    | none => rfl
    | some w => exact hnext w w (.same _)
  | @edited w w' hedit =>
    have hkind' := admits_edit kind hedit
    cases hkind : kind.admits w with
    | true =>
      rw [Option.filter_some_pos hkind, Option.filter_some_pos (hkind'.symm.trans hkind)]
      exact hnext w w' (.edited hedit)
    | false =>
      rw [Option.filter_some_neg hkind, Option.filter_some_neg (hkind'.symm.trans hkind)]
      rfl
  | null =>
    -- `null` is of no kind that a property can have
    cases kind <;> rfl

/-- A property is found before an edit just when it is after it. -/
theorem present_edit (h : Agrees s (v.get? s.name) (v'.get? s.name)) :
    present path v s.name kind = present path v' s.name kind :=
  property_bind_congr h fun _ _ _ => rfl

theorem bind_eq_bind {x y : Except Gap Unit} {f g : Unit → Except Gap Unit} (h : x = y) (hfg : ∀ u, f u = g u) :
    (x >>= f) = (y >>= g) := by
  rw [h, funext hfg]

/-- A loop ends as before if what it does with one of its items does. -/
theorem forM_replace {α : Type} {f : α → Except Gap Unit} {x x' : α} (h : f x = f x') (before after : List α) :
    (before ++ x :: after).forM f = (before ++ x' :: after).forM f := by
  induction before with
  | nil =>
    show (f x >>= fun _ => after.forM f) = (f x' >>= fun _ => after.forM f)
    rw [h]
  | cons y before ih =>
    show (f y >>= fun _ => (before ++ x :: after).forM f) = (f y >>= fun _ => (before ++ x' :: after).forM f)
    rw [ih]

/-- The items of a list, one of which is edited or none. -/
theorem eachItem_edit {name : String} {optional : Bool} {x y : Option Json}
    (h : Agrees ⟨name, optional, .list shape⟩ x y) (hcheck : Overlooks shape check) :
    eachItem path x check = eachItem path y check := by
  cases h with
  | same => rfl
  | null => rfl
  | edited hedit =>
    cases hedit with
    | @item _ before after w w' hitem =>
      show (before ++ w :: after).zipIdx.forM _ = (before ++ w' :: after).zipIdx.forM _
      rw [List.zipIdx_append, List.zipIdx_append]
      refine forM_replace ?_ _ _
      exact hcheck _ w w' hitem

/-- The values of a table, one of which is edited or none. -/
theorem eachMember_edit {name : String} {optional : Bool} {x y : Option Json}
    (h : Agrees ⟨name, optional, .table shape⟩ x y) (hcheck : Overlooks shape check) :
    eachMember path x check = eachMember path y check := by
  cases h with
  | same => rfl
  | null => rfl
  | edited hedit =>
    cases hedit with
    | @entry _ before after key w w' hentry =>
      show (before ++ (key, w) :: after).forM _ = (before ++ (key, w') :: after).forM _
      refine forM_replace ?_ _ _
      exact hcheck _ w w' hentry

/-- The check of a cell overlooks an edit of it. -/
theorem overlooks_cell : Overlooks Cell.shape checkCell := by
  intro path v v' h
  obtain ⟨hwidth, -⟩ := agreeOn_get? (by decide) h
  exact present_edit hwidth

/-- So does the check of a row, wherever in the row the edit is. -/
theorem overlooks_row : Overlooks Row.shape checkRow := by
  intro path v v' h
  obtain ⟨hheight, hcells⟩ := agreeOn_get? (by decide) h
  exact bind_eq_bind (present_edit hheight) fun _ => eachItem_edit hcells overlooks_cell

theorem overlooks_layer : Overlooks Layer.shape checkLayer := by
  intro path v v' h
  exact eachItem_edit (agreeOn_get? (by decide) h) overlooks_row

theorem overlooks_color : Overlooks ColorStyle.shape checkColor := by
  intro path v v' h
  obtain ⟨-, hcolor⟩ := agreeOn_get? (by decide) h
  exact present_edit hcolor

/-- **The check of a layout overlooks an edit anywhere in it.** -/
theorem overlooks_layout : Overlooks Layout.shape checkLayout := by
  intro path v v' h
  obtain ⟨hsize, hstyles, hlayers⟩ := agreeOn_get? (by decide) h
  refine bind_eq_bind (present_edit hsize) fun _ => property_bind_congr hstyles fun styles styles' hstyles => ?_
  obtain ⟨hcolors, -⟩ := hstyles.agreeOn_get? (by decide)
  refine bind_eq_bind (eachMember_edit hcolors overlooks_color) fun _ => ?_
  exact property_bind_congr hlayers fun layers layers' hlayers => eachItem_edit hlayers overlooks_layer

/-- **The walk finds the same gap after an edit.** -/
theorem check_edit {root root' : Json} (h : Edit Draft.shape root root') : Required.check root = Required.check root' := by
  obtain ⟨hname, -, -, -, hdata, -, -, -, hlayouts⟩ := agreeOn_get? (by decide) h
  refine bind_eq_bind (present_edit hname) fun _ => bind_eq_bind (present_edit hdata) fun _ => ?_
  exact property_bind_congr hlayouts fun layouts layouts' h => eachMember_edit h overlooks_layout

end Required

/-! ## §2. The decoding -/

section
variable {α β : Type}

/-- Two decodings end alike: with the same result, or both without one. -/
def Alike (x y : Decoded α) : Prop := x.toOption = y.toOption

/-- Decodings in two steps end alike if both of their steps do. -/
theorem alike_bind {x y : Decoded α} {f g : α → Decoded β} (h : Alike x y) (hfg : ∀ a, Alike (f a) (g a)) :
    Alike (x >>= f) (y >>= g) := by
  cases x with
  | ok a =>
    cases y with
    | ok b =>
      obtain rfl : a = b := Option.some.inj h
      exact hfg a
    | error e => cases h
  | error e =>
    cases y with
    | ok b => cases h
    | error e' => exact rfl

theorem alike_map {x y : Decoded α} (f : α → β) (h : Alike x y) : Alike (x.map f) (y.map f) :=
  alike_bind h fun _ => rfl

/-- A decoding ends alike after an edit. -/
def Overlooks (shape : Shape) (read : Json → Decoded α) : Prop := ∀ v v', Edit shape v v' → Alike (read v) (read v')

theorem overlooks_plain (read : Json → Decoded α) : Overlooks .plain read := by
  intro v v' h
  cases h

/-- Decodings of many values end alike if they differ in one of them, and that one ends alike. -/
theorem alike_mapM {f : β → Decoded α} {x x' : β} (h : Alike (f x) (f x')) (before after : List β) :
    Alike ((before ++ x :: after).mapM f) ((before ++ x' :: after).mapM f) := by
  induction before with
  | nil =>
    rw [List.nil_append, List.nil_append, List.mapM_cons, List.mapM_cons]
    exact alike_bind h fun _ => rfl
  | cons y before ih =>
    rw [List.cons_append, List.cons_append, List.mapM_cons, List.mapM_cons]
    exact alike_bind rfl fun _ => alike_bind ih fun _ => rfl

/-- An edit in an item is overlooked where the items are. -/
theorem overlooks_list {read : Json → Decoded α} (h : Overlooks shape read) :
    Overlooks (.list shape) (asList read) := by
  intro v v' hedit
  cases hedit with
  | item hitem => exact alike_mapM (h _ _ hitem) _ _

/-- An edit in a member is overlooked where the members are. -/
theorem overlooks_table {read : Json → Decoded α} (h : Overlooks shape read) :
    Overlooks (.table shape) (asTable read) := by
  intro v v' hedit
  cases hedit with
  | entry hentry =>
    refine alike_bind (alike_mapM ?_ _ _) fun _ => rfl
    exact alike_bind (h _ _ hentry) fun _ => rfl

variable {ms ms' : List (String × Json)} {name : String} {read : Json → Decoded α}

/-- A member that must be there is read alike if both answers for its name agree. -/
theorem alike_required (hread : Overlooks shape read)
    (h : Agrees (needed name shape) (ms.lookup name) (ms'.lookup name)) :
    Alike (required ms name read) (required ms' name read) := by
  unfold required
  generalize ms.lookup name = x at h ⊢
  generalize ms'.lookup name = y at h ⊢
  cases h with
  | same => rfl
  | edited hedit => exact hread _ _ hedit
  | null hoptional => cases hoptional

/-- So is a member that may be absent: an absent one and `null` are read alike. -/
theorem alike_ifGiven (hread : Overlooks shape read)
    (h : Agrees (Shape.optional name shape) (ms.lookup name) (ms'.lookup name)) :
    Alike (ifGiven ms name read) (ifGiven ms' name read) := by
  unfold ifGiven
  generalize ms.lookup name = x at h ⊢
  generalize ms'.lookup name = y at h ⊢
  cases h with
  | same => rfl
  | null => rfl
  | edited hedit =>
    -- what is edited is an object or an array, and so it is given before and after
    have hread := alike_map some (hread _ _ hedit)
    rcases hedit.kind with ⟨ms, ms', rfl, rfl⟩ | ⟨items, items', rfl, rfl⟩
    · exact hread
    · exact hread

/-- The items before the place of a member take the names before its own. -/
theorem zip_names {before : List Json} {s : Slot Shape} (h : slots[before.length]? = some s) (after : List Json) :
    ∃ first last, ∀ v, (slots.map Slot.name).zip (before ++ v :: after) = first ++ (s.name, v) :: last := by
  obtain ⟨hlength, hs⟩ := List.getElem?_eq_some_iff.1 h
  have hslots : slots = slots.take before.length ++ s :: slots.drop (before.length + 1) := by
    rw [← hs, List.getElem_cons_drop, List.take_append_drop]
  refine ⟨((slots.take before.length).map Slot.name).zip before,
    ((slots.drop (before.length + 1)).map Slot.name).zip after, fun v => ?_⟩
  conv_lhs => rw [hslots, List.map_append, List.map_cons]
  rw [List.zip_append, List.zip_cons_cons]
  rw [List.length_map, List.length_take]
  exact Nat.min_eq_left (Nat.le_of_lt hlength)

/-- An edited record has members that agree on what it asks for, or it is no record before and after. -/
theorem recordMembers_edit (hslots : Distinct slots) (h : Edit (.record slots) v v') :
    (∃ ms ms', recordMembers (slots.map Slot.name) v = .ok ms ∧ recordMembers (slots.map Slot.name) v' = .ok ms'
        ∧ AgreeOn slots (ms.lookup ·) (ms'.lookup ·))
      ∨ ∃ e e', recordMembers (slots.map Slot.name) v = .error e ∧ recordMembers (slots.map Slot.name) v' = .error e' := by
  rcases h.kind with ⟨ms, ms', rfl, rfl⟩ | ⟨items, items', rfl, rfl⟩
  · exact Or.inl ⟨ms, ms', rfl, rfl, agreeOn_get? hslots h⟩
  · cases h with
    | @place _ before after t w w' ht hedit =>
      by_cases hlength : (before ++ w :: after).length ≤ (slots.map Slot.name).length
      · have hlength' : (before ++ w' :: after).length ≤ (slots.map Slot.name).length := by simpa using hlength
        obtain ⟨first, last, hzip⟩ := zip_names ht after
        refine Or.inl ⟨_, _, if_pos hlength, if_pos hlength', agreeOn_of_forall fun s hs => ?_⟩
        show Agrees s (List.lookup s.name (List.zip _ _)) (List.lookup s.name (List.zip _ _))
        rw [hzip, hzip]
        exact agrees_member hslots hs (List.mem_of_getElem? ht) hedit
      · have hlength' : ¬(before ++ w' :: after).length ≤ (slots.map Slot.name).length := by simpa using hlength
        exact Or.inr ⟨_, _, if_neg hlength, if_neg hlength'⟩

/-- What is read from the members of a record, each by its name, is read alike after an edit. -/
theorem overlooks_record {read : List (String × Json) → Decoded α} (hslots : Distinct slots)
    (h : ∀ ms ms', AgreeOn slots (ms.lookup ·) (ms'.lookup ·) → Alike (read ms) (read ms')) :
    Overlooks (.record slots) fun json => recordMembers (slots.map Slot.name) json >>= read := by
  intro v v' hedit
  show Alike (recordMembers (slots.map Slot.name) v >>= read) (recordMembers (slots.map Slot.name) v' >>= read)
  rcases recordMembers_edit hslots hedit with ⟨ms, ms', hms, hms', hagree⟩ | ⟨e, e', he, he'⟩
  · rw [hms, hms']
    exact h ms ms' hagree
  · rw [he, he']
    rfl

end

/-- The decoding of a colour style overlooks an edit of it. -/
theorem overlooks_colorStyle : Overlooks ColorStyle.shape ColorStyle.ofJson := by
  refine overlooks_record (by decide) fun ms ms' ⟨hlabel, hcolor⟩ => ?_
  refine alike_bind (alike_ifGiven (overlooks_plain _) hlabel) fun label => ?_
  exact alike_bind (alike_required (overlooks_plain _) hcolor) fun color => rfl

theorem overlooks_fontStyle : Overlooks FontStyle.shape FontStyle.ofJson := by
  refine overlooks_record (by decide) fun ms ms' ⟨hlabel, hfamily⟩ => ?_
  refine alike_bind (alike_ifGiven (overlooks_plain _) hlabel) fun label => ?_
  exact alike_bind (alike_ifGiven (overlooks_plain _) hfamily) fun family => rfl

/-- The decoding of styles overlooks an edit anywhere in them. -/
theorem overlooks_styles : Overlooks Styles.shape Styles.ofJson := by
  refine overlooks_record (by decide) fun ms ms' ⟨hcolors, hfonts⟩ => ?_
  refine alike_bind (alike_ifGiven (overlooks_table overlooks_colorStyle) hcolors) fun colors => ?_
  exact alike_bind (alike_ifGiven (overlooks_table overlooks_fontStyle) hfonts) fun fonts => rfl

/-- A text is decoded alike after an edit, and so is an image. -/
theorem overlooks_textNode : Overlooks TextNode.shape TextNode.ofJson := by
  refine overlooks_record (by decide) fun ms ms'
    ⟨hstring, hdataRef, hcolorStyle, hfontStyle, hsize, hweight, hjustification, hscale⟩ => ?_
  refine alike_bind (alike_ifGiven (overlooks_plain _) hstring) fun string => ?_
  refine alike_bind (alike_ifGiven (overlooks_plain _) hdataRef) fun dataRef => ?_
  refine alike_bind (alike_ifGiven (overlooks_plain _) hcolorStyle) fun colorStyle => ?_
  refine alike_bind (alike_ifGiven (overlooks_plain _) hfontStyle) fun fontStyle => ?_
  refine alike_bind (alike_ifGiven (overlooks_plain _) hsize) fun size => ?_
  refine alike_bind (alike_ifGiven (overlooks_plain _) hweight) fun weight => ?_
  refine alike_bind (alike_ifGiven (overlooks_plain _) hjustification) fun justification => ?_
  exact alike_bind (alike_ifGiven (overlooks_plain _) hscale) fun scale => rfl

theorem overlooks_imageNode : Overlooks ImageNode.shape ImageNode.ofJson := by
  refine overlooks_record (by decide) fun ms ms' ⟨hdataRef, hurl, hmask⟩ => ?_
  refine alike_bind (alike_ifGiven (overlooks_plain _) hdataRef) fun dataRef => ?_
  refine alike_bind (alike_ifGiven (overlooks_plain _) hurl) fun url => ?_
  exact alike_bind (alike_ifGiven (overlooks_plain _) hmask) fun mask => rfl

/-- A cell is decoded alike after an edit of it, of its text or of its image. -/
theorem overlooks_cell : Overlooks Cell.shape Cell.ofJson := by
  refine overlooks_record (by decide) fun ms ms' ⟨hwidth, hpadding, hbackground, htext, himage, hlink⟩ => ?_
  refine alike_bind (alike_required (overlooks_plain _) hwidth) fun width => ?_
  refine alike_bind (alike_ifGiven (overlooks_plain _) hpadding) fun padding => ?_
  refine alike_bind (alike_ifGiven (overlooks_plain _) hbackground) fun background => ?_
  refine alike_bind (alike_ifGiven overlooks_textNode htext) fun text => ?_
  refine alike_bind (alike_ifGiven overlooks_imageNode himage) fun image => ?_
  exact alike_bind (alike_ifGiven (overlooks_plain _) hlink) fun link => rfl

theorem overlooks_row : Overlooks Row.shape Row.ofJson := by
  refine overlooks_record (by decide) fun ms ms' ⟨hheight, hcells⟩ => ?_
  refine alike_bind (alike_required (overlooks_plain _) hheight) fun height => ?_
  exact alike_bind (alike_ifGiven (overlooks_list overlooks_cell) hcells) fun cells => rfl

theorem overlooks_layer : Overlooks Layer.shape Layer.ofJson :=
  overlooks_record (by decide) fun _ _ hrows =>
    alike_bind (alike_ifGiven (overlooks_list overlooks_row) hrows) fun _ => rfl

/-- A layout is decoded alike after an edit anywhere in it. -/
theorem overlooks_layout : Overlooks Layout.shape Layout.ofJson := by
  refine overlooks_record (by decide) fun ms ms' ⟨hsize, hstyles, hlayers⟩ => ?_
  refine alike_bind (alike_required (overlooks_plain _) hsize) fun size => ?_
  refine alike_bind (alike_required overlooks_styles hstyles) fun styles => ?_
  exact alike_bind (alike_required (overlooks_list overlooks_layer) hlayers) fun layers => rfl

/-- **The decoding ends alike after an edit.** -/
theorem overlooks_draft : Overlooks Draft.shape Draft.ofJson := by
  refine overlooks_record (by decide) fun ms ms'
    ⟨hname, hdescription, hmodified, hversion, hdata, hdefault, hthumbnail, horder, hlayouts⟩ => ?_
  refine alike_bind (alike_required (overlooks_plain _) hname) fun name => ?_
  refine alike_bind (alike_ifGiven (overlooks_plain _) hdescription) fun description => ?_
  refine alike_bind (alike_ifGiven (overlooks_plain _) hmodified) fun modified => ?_
  refine alike_bind (alike_ifGiven (overlooks_plain _) hversion) fun version => ?_
  refine alike_bind (alike_required (overlooks_table (overlooks_plain _)) hdata) fun data => ?_
  refine alike_bind (alike_ifGiven (overlooks_plain _) hdefault) fun defaultLayout => ?_
  refine alike_bind (alike_ifGiven (overlooks_plain _) hthumbnail) fun thumbnail => ?_
  refine alike_bind (alike_ifGiven (overlooks_list (overlooks_plain _)) horder) fun order => ?_
  exact alike_bind (alike_required (overlooks_table overlooks_layout) hlayouts) fun layouts => rfl

/-! ## §3. Reading -/

namespace Draft

/-- What an error says apart from the words for it: the property that is missing, and its owner. -/
def missing? : DefinitionError → Option (String × Option String)
  | .missingProperty field parent => some (field, parent)
  | .undecodable _ => none

/-- What comes of a reading, the words apart for what could not be decoded. -/
def answer (x : Except DefinitionError (Draft Float)) : Except (Option (String × Option String)) (Draft Float) :=
  x.mapError missing?

/-- **Reading answers the same after an edit.** -/
theorem read_edit {root root' : Json} (h : Edit Draft.shape root root') : answer (read root) = answer (read root') := by
  rcases h.kind with ⟨ms, ms', rfl, rfl⟩ | ⟨items, items', rfl, rfl⟩
  · have hcheck := Required.check_edit h
    have hofJson := overlooks_draft _ _ h
    -- the walk ends with one and the same gap, or else the decoding has the word
    show answer ((Required.check (.object ms)).mapError .ofGap >>= fun _ => (Draft.ofJson (.object ms)).mapError _)
      = answer ((Required.check (.object ms')).mapError .ofGap >>= fun _ => (Draft.ofJson (.object ms')).mapError _)
    rw [hcheck]
    cases Required.check (.object ms') with
    | error gap => rfl
    | ok u =>
      show answer ((Draft.ofJson (.object ms)).mapError _) = answer ((Draft.ofJson (.object ms')).mapError _)
      generalize Draft.ofJson (.object ms) = x at hofJson ⊢
      generalize Draft.ofJson (.object ms') = y at hofJson ⊢
      cases x <;> cases y <;> cases hofJson <;> rfl
  · rfl

/-- Any number of edits, and of edits undone. -/
theorem read_edits {root root' : Json} (h : Relation.EqvGen (Edit Draft.shape) root root') :
    answer (read root) = answer (read root') := by
  induction h with
  | rel root root' h => exact read_edit h
  | refl root => rfl
  | symm root root' _ ih => exact ih.symm
  | trans root root' root'' _ _ ih ih' => exact ih.trans ih'

/-- Bytes are read as the value that they are parsed to. -/
theorem readBytes_of_parse {bytes : Bytes} {root : Json} (h : Json.parseBytes? bytes = some root) :
    readBytes bytes = read root := by
  unfold readBytes
  rw [h]

/--
**Reading looks only at the members that it knows.** Any number of edits, made or undone, at the root of a document or
at any record in it, leave the answer as it is: the same definition; or the same missing property with the same owner; or
again no definition, whatever is said of it. An edit puts in a member that the record does not ask for, or puts its
members in another order, or writes `null` for an optional member that is absent. So it is for values and for the bytes
of documents that are parsed into them.

Only in tables the order is seen: a definition that is read from a value that a text can spell has its data, its layouts,
and the colours and fonts of each layout, in the order in which they stand there.
-/
theorem reads_known_members :
    (∀ root root', Relation.EqvGen (Edit Draft.shape) root root' → answer (read root) = answer (read root'))
      ∧ (∀ bytes bytes' root root', Json.parseBytes? bytes = some root → Json.parseBytes? bytes' = some root' →
          Relation.EqvGen (Edit Draft.shape) root root' → answer (readBytes bytes) = answer (readBytes bytes'))
      ∧ ∀ root d, root.Measured → read root = .ok d → d.InOrder root := by
  refine ⟨fun root root' => read_edits, fun bytes bytes' root root' hroot hroot' h => ?_, fun root d => inOrder_of_read⟩
  rw [readBytes_of_parse hroot, readBytes_of_parse hroot']
  exact read_edits h

/-- A document with one cell: it can be read, and a note put into the cell, with the members of the root turned around,
changes nothing. -/
theorem reads_known_members_cell :
    let cell (ms : List (String × Json)) : Json := .object (("width", .ofNat 6) :: ms)
    let row (c : Json) : Json := .object [("height", .ofNat 6), ("cells", .array [c])]
    let layer (r : Json) : Json := .object [("rows", .array [r])]
    let layout (l : Json) : Json := .object [("size", .string "small"), ("styles", .object []), ("layers", .array [l])]
    let members (l : Json) : List (String × Json) :=
      [("name", .string "n"), ("data", .object []), ("layouts", .object [("a", l)])]
    let plainRoot := members (layout (layer (row (cell []))))
    let noted := members (layout (layer (row (cell [("note", .bool true)]))))
    (read (.object plainRoot)).toOption.isSome = true
      ∧ answer (read (.object plainRoot)) = answer (read (.object noted.reverse)) := by
  intro cell row layer layout members plainRoot noted
  have hcell : Edit Cell.shape (cell []) (cell [("note", .bool true)]) :=
    @Edit.insert _ [("width", .ofNat 6)] [] "note" (.bool true) (by decide)
  have hrow : Edit Row.shape (row (cell [])) (row (cell [("note", .bool true)])) :=
    @Edit.member _ [("height", .ofNat 6)] [] (Shape.optional "cells" (.list Cell.shape)) _ _ (by simp)
      (@Edit.item _ [] [] _ _ hcell)
  have hlayer : Edit Layer.shape (layer (row (cell []))) (layer (row (cell [("note", .bool true)]))) :=
    @Edit.member _ [] [] (Shape.optional "rows" (.list Row.shape)) _ _ (by simp) (@Edit.item _ [] [] _ _ hrow)
  have hlayout : Edit Layout.shape (layout (layer (row (cell []))))
      (layout (layer (row (cell [("note", .bool true)])))) :=
    @Edit.member _ [("size", .string "small"), ("styles", .object [])] [] (needed "layers" (.list Layer.shape)) _ _
      (by simp) (@Edit.item _ [] [] _ _ hlayer)
  have hroot : Edit Draft.shape (.object plainRoot) (.object noted) :=
    @Edit.member _ [("name", .string "n"), ("data", .object [])] [] (needed "layouts" (.table Layout.shape)) _ _
      (by simp) (@Edit.entry _ [] [] "a" _ _ hlayout)
  have hturned : Edit Draft.shape (.object noted) (.object noted.reverse) :=
    .permute (by decide) (List.reverse_perm noted).symm
  exact ⟨rfl, reads_known_members.1 _ _ (.trans _ _ _ (.rel _ _ hroot) (.rel _ _ hturned))⟩

end Draft
end HomeWidget
