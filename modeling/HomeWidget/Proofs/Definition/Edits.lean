import HomeWidget.Definition.Basic
import HomeWidget.Json.Basic
import HomeWidget.Proofs.Table
import Mathlib.Data.List.Nodup

/-!
# Edits of a document

A document says the same after some edits: a member is put in that no record asks for, the members of a record are put in
another order, an optional member that is absent is written as `null`. Such an edit may be made of any record, however
deep it lies. Here it is said once, by a shape, which parts of a document are records and what they ask for; an edit is
one step in a value of some shape.

Whoever reads a record asks it for the members that it knows. So all that is needed of an edit is what a record answers
to such a question afterwards: the same, or the same but for an edit further inside, or `null` where it had nothing.

Main results: `Edit`, `Agrees`, `agrees_get?`.
-/
namespace HomeWidget

open Json

/-! ## §1. Shapes -/

/-- A member that a record asks for: whether it may be absent or `null`, and the shape of its value. -/
structure Slot (σ : Type) where
  name : String
  optional : Bool
  shape : σ

/-- How a part of a document is made up. -/
inductive Shape where
  /-- Without records. -/
  | plain
  /-- An array of such parts. -/
  | list (item : Shape)
  /-- An object whose members have names of their own. -/
  | table (value : Shape)
  /-- An object, or an array, that is asked for these members. -/
  | record (slots : List (Slot Shape))

namespace Shape

/-- A member that must be there. -/
def needed (name : String) (shape : Shape) : Slot Shape := ⟨name, false, shape⟩

/-- A member that may be absent or `null`. -/
def optional (name : String) (shape : Shape) : Slot Shape := ⟨name, true, shape⟩

end Shape

open Shape

def ColorStyle.shape : Shape := .record [optional "label" .plain, needed "color" .plain]

def FontStyle.shape : Shape := .record [optional "label" .plain, optional "family" .plain]

def Styles.shape : Shape :=
  .record [optional "colors" (.table ColorStyle.shape), optional "fonts" (.table FontStyle.shape)]

def TextNode.shape : Shape :=
  .record
    [optional "string" .plain, optional "data_ref" .plain, optional "color_style" .plain, optional "font_style" .plain,
      optional "size" .plain, optional "weight" .plain, optional "justification" .plain,
      optional "min_scale_factor" .plain]

def ImageNode.shape : Shape := .record [optional "data_ref" .plain, optional "url" .plain, optional "mask" .plain]

def Cell.shape : Shape :=
  .record
    [needed "width" .plain, optional "padding" .plain, optional "background_color_style" .plain,
      optional "text" TextNode.shape, optional "image" ImageNode.shape, optional "link_url_data_ref" .plain]

def Row.shape : Shape := .record [needed "height" .plain, optional "cells" (.list Cell.shape)]

def Layer.shape : Shape := .record [optional "rows" (.list Row.shape)]

def Layout.shape : Shape :=
  .record [needed "size" .plain, needed "styles" Styles.shape, needed "layers" (.list Layer.shape)]

def Draft.shape : Shape :=
  .record
    [needed "name" .plain, optional "description" .plain, optional "content_last_modified" .plain,
      optional "version" .plain, needed "data" (.table .plain), optional "default_layout" .plain,
      optional "thumbnail_layout" .plain, optional "layout_display_order" (.list .plain),
      needed "layouts" (.table Layout.shape)]

/-! ## §2. Edits -/

/-- One edit somewhere in a value of a shape. -/
inductive Edit : Shape → Json → Json → Prop where
  /-- A member that the record does not ask for is put in, anywhere. -/
  | insert {slots : List (Slot Shape)} {before after : List (String × Json)} {name : String} {value : Json} :
      (∀ s ∈ slots, s.name ≠ name) →
        Edit (.record slots) (.object (before ++ after)) (.object (before ++ (name, value) :: after))
  /-- The members of a record are put in another order; no two of them have one name, as in all that is parsed. -/
  | permute {slots : List (Slot Shape)} {ms ms' : List (String × Json)} :
      (Members.names ms).Nodup → ms.Perm ms' → Edit (.record slots) (.object ms) (.object ms')
  /-- An optional member that is absent is written as `null`. -/
  | null {slots : List (Slot Shape)} {before after : List (String × Json)} {s : Slot Shape} :
      s ∈ slots → s.optional = true → s.name ∉ Members.names (before ++ after) →
        Edit (.record slots) (.object (before ++ after)) (.object (before ++ (s.name, .null) :: after))
  /-- An edit in a member of a record. -/
  | member {slots : List (Slot Shape)} {before after : List (String × Json)} {s : Slot Shape} {v v' : Json} :
      s ∈ slots → Edit s.shape v v' →
        Edit (.record slots) (.object (before ++ (s.name, v) :: after)) (.object (before ++ (s.name, v') :: after))
  /-- An edit in a member of a record that is written as an array. -/
  | place {slots : List (Slot Shape)} {before after : List Json} {s : Slot Shape} {v v' : Json} :
      slots[before.length]? = some s → Edit s.shape v v' →
        Edit (.record slots) (.array (before ++ v :: after)) (.array (before ++ v' :: after))
  /-- An edit in an item of a list. -/
  | item {shape : Shape} {before after : List Json} {v v' : Json} :
      Edit shape v v' → Edit (.list shape) (.array (before ++ v :: after)) (.array (before ++ v' :: after))
  /-- An edit in a value of a table. -/
  | entry {shape : Shape} {before after : List (String × Json)} {name : String} {v v' : Json} :
      Edit shape v v' →
        Edit (.table shape) (.object (before ++ (name, v) :: after)) (.object (before ++ (name, v') :: after))

variable {shape : Shape} {slots : List (Slot Shape)} {s : Slot Shape} {v v' : Json}

/-- What is edited is an object before and after, or an array. -/
theorem Edit.kind (h : Edit shape v v') :
    (∃ ms ms', v = .object ms ∧ v' = .object ms') ∨ ∃ items items', v = .array items ∧ v' = .array items' := by
  cases h with
  | insert | permute | null | member | entry => exact Or.inl ⟨_, _, rfl, rfl⟩
  | place | item => exact Or.inr ⟨_, _, rfl, rfl⟩

/-! ## §3. What a record answers -/

/-- What a record answers when it is asked for a member, before and after an edit. -/
inductive Agrees (s : Slot Shape) : Option Json → Option Json → Prop where
  | same (answer : Option Json) : Agrees s answer answer
  | edited {v v' : Json} : Edit s.shape v v' → Agrees s (some v) (some v')
  | null : s.optional = true → Agrees s none (some .null)

/-- A member that is put in leaves the other names alone. -/
theorem lookup_insert_of_ne {before after : List (String × Json)} {name key : String} (h : key ≠ name) :
    (before ++ (name, v) :: after).lookup key = (before ++ after).lookup key := by
  rw [List.lookup_append, List.lookup_append, Members.lookup_cons, if_neg h]

/-- The name of a member that is put in leads to what stood before it, if that has the name. -/
theorem lookup_insert_self {before after : List (String × Json)} {name : String} :
    (before ++ (name, v) :: after).lookup name = (before.lookup name).or (some v) := by
  rw [List.lookup_append, Members.lookup_cons, if_pos rfl]

/-- The names that a record asks for differ. -/
def Distinct (slots : List (Slot Shape)) : Prop := (slots.map Slot.name).Nodup

instance (slots : List (Slot Shape)) : Decidable (Distinct slots) :=
  inferInstanceAs (Decidable (slots.map Slot.name).Nodup)

theorem eq_of_name_eq (hslots : Distinct slots) {s t : Slot Shape} (hs : s ∈ slots) (ht : t ∈ slots)
    (h : s.name = t.name) : s = t :=
  List.inj_on_of_nodup_map hslots hs ht h

/-- An edit in one member leaves every member that is asked for in agreement. -/
theorem agrees_member (hslots : Distinct slots) {before after : List (String × Json)} {s t : Slot Shape}
    (hs : s ∈ slots) (ht : t ∈ slots) (h : Edit t.shape v v') :
    Agrees s ((before ++ (t.name, v) :: after).lookup s.name) ((before ++ (t.name, v') :: after).lookup s.name) := by
  by_cases hname : s.name = t.name
  · obtain rfl := eq_of_name_eq hslots hs ht hname
    rw [lookup_insert_self, lookup_insert_self]
    cases before.lookup s.name with
    | none => exact .edited h
    | some w => exact .same (some w)
  · rw [lookup_insert_of_ne hname, lookup_insert_of_ne hname]
    exact .same _

/-- **After an edit a record answers as before**, or with what was edited, or with `null` instead of nothing. -/
theorem agrees_get? (hslots : Distinct slots) (h : Edit (.record slots) v v') (hs : s ∈ slots) :
    Agrees s (v.get? s.name) (v'.get? s.name) := by
  cases h with
  | @insert _ before after name value hunknown =>
    show Agrees s ((before ++ after).lookup s.name) ((before ++ (name, value) :: after).lookup s.name)
    rw [lookup_insert_of_ne (hunknown s hs)]
    exact .same _
  | @permute _ ms ms' hnames hperm =>
    show Agrees s (ms.lookup s.name) (ms'.lookup s.name)
    rw [Members.lookup_perm hperm hnames]
    exact .same _
  | @null _ before after t ht hoptional habsent =>
    show Agrees s ((before ++ after).lookup s.name) ((before ++ (t.name, .null) :: after).lookup s.name)
    by_cases hname : s.name = t.name
    · obtain rfl := eq_of_name_eq hslots hs ht hname
      have hnone : (before ++ after).lookup s.name = none := Members.lookup_eq_none_iff.2 habsent
      have hbefore : before.lookup s.name = none := by
        rw [List.lookup_append, Option.or_eq_none_iff] at hnone
        exact hnone.1
      rw [hnone, lookup_insert_self, hbefore]
      exact .null hoptional
    · rw [lookup_insert_of_ne hname]
      exact .same _
  | member ht hedit => exact agrees_member hslots hs ht hedit
  | place => exact .same none

/-- What is asked for, before and after, agrees for each member of a record. -/
def AgreeOn (slots : List (Slot Shape)) (answer answer' : String → Option Json) : Prop :=
  slots.Forall fun s => Agrees s (answer s.name) (answer' s.name)

theorem agreeOn_of_forall {answer answer' : String → Option Json}
    (h : ∀ s ∈ slots, Agrees s (answer s.name) (answer' s.name)) : AgreeOn slots answer answer' :=
  List.forall_iff_forall_mem.2 h

/-- **After an edit of a record each member that it asks for agrees.** -/
theorem agreeOn_get? (hslots : Distinct slots) (h : Edit (.record slots) v v') :
    AgreeOn slots (v.get? ·) (v'.get? ·) :=
  agreeOn_of_forall fun _ hs => agrees_get? hslots h hs

/-- So it does for a record that was reached through a member. -/
theorem Agrees.agreeOn_get? {name : String} {optional : Bool} (hslots : Distinct slots)
    (h : Agrees ⟨name, optional, .record slots⟩ (some v) (some v')) : AgreeOn slots (v.get? ·) (v'.get? ·) := by
  cases h with
  | same => exact agreeOn_of_forall fun s _ => .same _
  | edited hedit => exact HomeWidget.agreeOn_get? hslots hedit

end HomeWidget
