/-!
# Tables

A definition names things: data values, layouts, colours, fonts. A table holds such named things in the order in
which they were first named, and holds each name once; writing a name again replaces its value and keeps its
place. Order is part of a table because it is shown: the first layout is the one that opens.
-/
namespace HomeWidget

/-! ## §1. Members -/

namespace Members

variable {α : Type}

/-- Writes `name`: in place if it is there, else at the end. -/
def put (name : String) (value : α) : List (String × α) → List (String × α)
  | [] => [(name, value)]
  -- the place of the name stays, and so does everything around it
  | (n, v) :: rest => if n = name then (name, value) :: rest else (n, v) :: put name value rest

/-- The names of a list of members. -/
def names (ms : List (String × α)) : List String := ms.map Prod.fst

theorem names_put (name : String) (value : α) (ms : List (String × α)) :
    names (put name value ms) = if name ∈ names ms then names ms else names ms ++ [name] := by
  induction ms with
  | nil => rfl
  | cons m rest ih =>
    obtain ⟨n, v⟩ := m
    by_cases h : n = name
    · simp [put, h, names]
    · have h' : ¬ name = n := fun e => h e.symm
      simp only [put, h, if_false]
      simp only [names, List.map_cons, List.mem_cons, h', false_or] at ih ⊢
      rw [ih]
      split <;> simp_all

theorem nodup_names_put {ms : List (String × α)} (name : String) (value : α) (h : (names ms).Nodup) :
    (names (put name value ms)).Nodup := by
  rw [names_put]
  split
  · exact h
  · next hn =>
    refine List.nodup_append.2 ⟨h, by simp, ?_⟩
    intro a ha b hb
    rw [List.mem_singleton.1 hb]
    rintro rfl
    exact hn ha

end Members

/-! ## §2. Tables -/

/-- Named values in the order of their names' first appearance, each name once. -/
structure Table (α : Type) where
  entries : List (String × α)
  nodup : (Members.names entries).Nodup

namespace Table

variable {α β : Type}

instance [BEq α] : BEq (Table α) := ⟨fun t u => t.entries == u.entries⟩

theorem ext {t u : Table α} (h : t.entries = u.entries) : t = u := by
  cases t; cases u; cases h; rfl

/-- No names. -/
def empty : Table α := ⟨[], List.nodup_nil⟩

instance : Inhabited (Table α) := ⟨empty⟩

/-- The names, in order. -/
def names (t : Table α) : List String := Members.names t.entries

/-- The value of a name. -/
def get? (t : Table α) (name : String) : Option α := t.entries.lookup name

/-- Is the name in the table? -/
def contains (t : Table α) (name : String) : Bool := (t.get? name).isSome

/-- The number of names. -/
def size (t : Table α) : Nat := t.entries.length

/-- Writes a name: in place if it is there, else at the end. -/
def insert (t : Table α) (name : String) (value : α) : Table α :=
  ⟨Members.put name value t.entries, Members.nodup_names_put name value t.nodup⟩

/-- The table with only the members that `keep` keeps. -/
def filter (keep : String → α → Bool) (t : Table α) : Table α :=
  ⟨t.entries.filter fun (n, v) => keep n v,
   List.Sublist.nodup (List.Sublist.map Prod.fst List.filter_sublist) t.nodup⟩

/-- The table without one name. -/
def erase (t : Table α) (name : String) : Table α := t.filter fun n _ => n ≠ name

/-- The table that the members of a list make when they are written one after the other. -/
def ofList (ms : List (String × α)) : Table α := ms.foldl (fun t (n, v) => t.insert n v) empty

end Table
end HomeWidget
