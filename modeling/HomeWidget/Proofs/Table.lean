import HomeWidget.Table

/-!
# What a table holds

Reading a name of a table after one write, one removal or a filter, and which names a table has. Members that are
written one after the other, each name for the first time, make the table that holds them in this order.

Main results: `Table.get?_insert`, `Table.get?_filter`, `Table.ofList_entries`.
-/
namespace HomeWidget

/-! ## §1. Members -/

namespace Members

variable {α : Type}

@[simp]
theorem names_cons (m : String × α) (ms : List (String × α)) : names (m :: ms) = m.1 :: names ms := rfl

/-- The first member of a name is the one that is found. -/
@[simp]
theorem lookup_cons (key : String) (m : String × α) (ms : List (String × α)) :
    (m :: ms).lookup key = if key = m.1 then some m.2 else ms.lookup key := by
  obtain ⟨n, v⟩ := m
  rw [List.lookup_cons]
  by_cases h : key = n
  · rw [if_pos h, h, beq_self_eq_true]
  · rw [if_neg h, beq_eq_false_iff_ne.2 h]

/-- A value that is put in is found under its name, and nothing else changes. -/
theorem lookup_put (name key : String) (value : α) (ms : List (String × α)) :
    (put name value ms).lookup key = if key = name then some value else ms.lookup key := by
  induction ms with
  | nil => rw [put, lookup_cons]
  | cons m rest ih =>
    obtain ⟨n, v⟩ := m
    by_cases hn : n = name
    · rw [put, if_pos hn, lookup_cons, lookup_cons, hn]
      by_cases h : key = name
      · rw [if_pos h, if_pos h]
      · rw [if_neg h, if_neg h, if_neg h]
    · -- another name stands first: it can be the key only if the key is not the name that is written
      rw [put, if_neg hn, lookup_cons, lookup_cons, ih]
      by_cases h : key = name
      · have hne : ¬key = n := fun e => hn (e.symm.trans h)
        rw [if_pos h, if_neg hne, if_pos h]
      · rw [if_neg h, if_neg h]

/-- What is among the members after a write is the one that was written or was there before. -/
theorem mem_put {name : String} {value : α} {ms : List (String × α)} {m : String × α}
    (h : m ∈ Members.put name value ms) : m = (name, value) ∨ m ∈ ms := by
  induction ms with
  | nil => exact Or.inl (List.mem_singleton.1 h)
  | cons first ms ih =>
    obtain ⟨n, v⟩ := first
    unfold Members.put at h
    split at h
    · rcases List.mem_cons.1 h with h | h
      · exact Or.inl h
      · exact Or.inr (List.mem_cons_of_mem _ h)
    · rcases List.mem_cons.1 h with h | h
      · exact Or.inr (h ▸ List.mem_cons_self)
      · rcases ih h with h | h
        · exact Or.inl h
        · exact Or.inr (List.mem_cons_of_mem _ h)

/-- A name that is new is written at the end. -/
theorem put_of_not_mem {name : String} {ms : List (String × α)} (value : α) (h : name ∉ names ms) :
    put name value ms = ms ++ [(name, value)] := by
  induction ms with
  | nil => rfl
  | cons m rest ih =>
    obtain ⟨n, v⟩ := m
    rw [names_cons, List.mem_cons, not_or] at h
    have hn : ¬n = name := fun e => h.1 e.symm
    rw [put, if_neg hn, ih h.2]
    rfl

/-- What is found is a member. -/
theorem mem_of_lookup {name : String} {value : α} {ms : List (String × α)} (h : ms.lookup name = some value) :
    (name, value) ∈ ms := by
  obtain ⟨before, after, rfl, -⟩ := List.lookup_eq_some_iff.1 h
  exact List.mem_append_right _ List.mem_cons_self

/-- A name is among those of the members just when something is found under it. -/
theorem mem_names_iff {name : String} {ms : List (String × α)} :
    name ∈ names ms ↔ (ms.lookup name).isSome = true := by
  rw [List.lookup_isSome_iff]
  unfold names
  simp

/-- Nothing is found under any other name. -/
theorem lookup_eq_none_iff {name : String} {ms : List (String × α)} : ms.lookup name = none ↔ name ∉ names ms := by
  rw [mem_names_iff, Option.not_isSome_iff_eq_none]

/-- Where no name is repeated, a name has the value that stands beside it. -/
theorem lookup_eq_some_iff {ms : List (String × α)} (h : (names ms).Nodup) {name : String} {value : α} :
    ms.lookup name = some value ↔ (name, value) ∈ ms := by
  refine ⟨mem_of_lookup, fun hmem => ?_⟩
  induction ms with
  | nil => cases hmem
  | cons m rest ih =>
    rw [names_cons, List.nodup_cons] at h
    rw [lookup_cons]
    rcases List.mem_cons.1 hmem with rfl | hmem
    · exact if_pos rfl
    · have hne : name ≠ m.1 := fun e => h.1 (e ▸ List.mem_map_of_mem hmem)
      rw [if_neg hne]
      exact ih h.2 hmem

/-- Where no name is repeated, the order of the members is of no account to a name. -/
theorem lookup_perm {ms ms' : List (String × α)} (hperm : ms.Perm ms') (h : (names ms).Nodup) (name : String) :
    ms.lookup name = ms'.lookup name := by
  have h' : (names ms').Nodup := (hperm.map Prod.fst).nodup_iff.1 h
  refine Option.ext fun value => ?_
  rw [lookup_eq_some_iff h, lookup_eq_some_iff h']
  exact hperm.mem_iff

/-- Where no name is repeated, a filter decides over a name by its value alone. -/
theorem lookup_filter {ms : List (String × α)} (h : (names ms).Nodup) (keep : String → α → Bool) (name : String) :
    (ms.filter fun (n, v) => keep n v).lookup name = (ms.lookup name).filter (keep name) := by
  have hkept : (names (ms.filter fun (n, v) => keep n v)).Nodup :=
    (List.filter_sublist.map Prod.fst).nodup h
  refine Option.ext fun value => ?_
  rw [lookup_eq_some_iff hkept, List.mem_filter, Option.filter_eq_some_iff, lookup_eq_some_iff h]

end Members

/-! ## §2. Tables -/

namespace Table

variable {α : Type}

/-- The members of a table without names. -/
@[simp]
theorem entries_empty : (empty : Table α).entries = [] := rfl

/-- **A written name has its new value**, and the others keep theirs. -/
theorem get?_insert (t : Table α) (name key : String) (value : α) :
    (t.insert name value).get? key = if key = name then some value else t.get? key :=
  Members.lookup_put name key value t.entries

/-- **A filtered table has the values that are kept**, under their names. -/
theorem get?_filter (keep : String → α → Bool) (t : Table α) (name : String) :
    (t.filter keep).get? name = (t.get? name).filter (keep name) :=
  Members.lookup_filter t.nodup keep name

/-- **A removed name is gone**, and the others keep their values. -/
theorem get?_erase (t : Table α) (name key : String) :
    (t.erase name).get? key = if key = name then none else t.get? key := by
  unfold erase
  rw [get?_filter]
  by_cases h : key = name
  · rw [if_pos h]
    simp [h]
  · rw [if_neg h]
    cases t.get? key <;> simp [h]

/-- Nothing is taken away if everything is kept. -/
theorem filter_eq_self {keep : String → α → Bool} (h : ∀ name value, keep name value = true) (t : Table α) :
    t.filter keep = t := ext (List.filter_eq_self.2 fun m _ => h m.1 m.2)

/-- Names that are removed first need not be removed later. -/
theorem filter_erase (t : Table α) (name : String) (names : List String) :
    (t.erase name).filter (fun n _ => n ∉ names) = t.filter fun n _ => n ∉ name :: names := by
  apply ext
  show List.filter _ (List.filter _ t.entries) = List.filter _ t.entries
  rw [List.filter_filter]
  refine List.filter_congr fun m _ => ?_
  rw [← Bool.decide_and]
  simp only [List.mem_cons, not_or, and_comm]

theorem mem_names_iff {t : Table α} {name : String} : name ∈ t.names ↔ (t.get? name).isSome = true :=
  Members.mem_names_iff

theorem get?_of_entries_eq_nil {t : Table α} (h : t.entries = []) (name : String) : t.get? name = none := by
  unfold get?
  rw [h]
  rfl

/-- A table has as many names as entries. -/
theorem length_names (t : Table α) : t.names.length = t.size := by
  unfold names Members.names size
  rw [List.length_map]

/-- Members with new names are written after those that are there. -/
theorem entries_foldl_insert (t : Table α) (ms : List (String × α))
    (h : (Members.names (t.entries ++ ms)).Nodup) :
    (ms.foldl (fun t (n, v) => t.insert n v) t).entries = t.entries ++ ms := by
  induction ms generalizing t with
  | nil => simp
  | cons m rest ih =>
    -- the first member is new to the table, so that it goes to the end and the rest is new to the longer table
    obtain ⟨n, v⟩ := m
    have hnew : n ∉ Members.names t.entries := by
      intro hmem
      unfold Members.names at h hmem
      rw [List.map_append, List.nodup_append] at h
      exact h.2.2 n hmem n (by simp) rfl
    have hentries : (t.insert n v).entries = t.entries ++ [(n, v)] := Members.put_of_not_mem v hnew
    rw [List.foldl_cons, ih (t.insert n v)]
    · rw [hentries, List.append_assoc]
      rfl
    · rw [hentries, List.append_assoc]
      exact h

/-- **Members without repeated names make the table that holds them**, in their order. -/
theorem entries_ofList {ms : List (String × α)} (h : (Members.names ms).Nodup) : (ofList ms).entries = ms := by
  unfold ofList
  rw [entries_foldl_insert empty ms (by simpa using h), entries_empty, List.nil_append]

/-- A table is made again from its entries. -/
theorem ofList_entries (t : Table α) : ofList t.entries = t :=
  ext (entries_ofList t.nodup)

/-- The entries of a table that is filled from a list are from the list, or were there before. -/
theorem mem_entries_foldl_insert {ms : List (String × α)} {t : Table α} {m : String × α}
    (h : m ∈ (ms.foldl (fun t (n, v) => t.insert n v) t).entries) : m ∈ ms ∨ m ∈ t.entries := by
  induction ms generalizing t with
  | nil => exact Or.inr h
  | cons first ms ih =>
    obtain ⟨n, v⟩ := first
    rcases ih h with h | h
    · exact Or.inl (List.mem_cons_of_mem _ h)
    · rcases Members.mem_put h with rfl | h
      · exact Or.inl List.mem_cons_self
      · exact Or.inr h

/-- A table holds nothing but what was written into it. -/
theorem mem_entries_ofList {ms : List (String × α)} {m : String × α} (h : m ∈ (ofList ms).entries) : m ∈ ms := by
  rcases mem_entries_foldl_insert h with h | h
  · exact h
  · cases h

end Table
end HomeWidget
