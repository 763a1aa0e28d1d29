import HomeWidget.Proofs.Fetch.Steps
import HomeWidget.Timeline.Subscription

/-!
# Options and pruning, row by row

Over a store that works, the options of a surface are read off the rows, and nothing is changed. Pruning takes away
the listed rows that no subscription names, and leaves every other row as it is, whatever is listed and how often.

Main results: `configurableOptions_of_get`, `pruneRows_dangling`, `get?_pruneRows`.
-/
namespace HomeWidget

/-- The option that a subscription offers over these rows. -/
def optionIn? (rows : RowStore.Rows) (s : Subscription) : Option WidgetOption :=
  (rows.get? s.id).bind fun bytes => (Draft.readBytes bytes).toOption.map fun draft => ⟨s.id, draft.name, s.size⟩

section

variable {σ : Type} {store : RowStore (StateM σ)} {rows : σ → RowStore.Rows} {update : RowStore.Rows → σ → σ}

/-- The option of a subscription is read off its row, by any store that reads a table. -/
theorem optionOf?_run (h : ∀ id a, (store.get id).run a = (.ok ((rows a).get? id), a)) (s : Subscription) (a : σ) :
    (optionOf? store s).run a = (optionIn? (rows a) s, a) := by
  unfold optionOf? optionIn?
  rw [StateT.run_bind, h]
  cases (rows a).get? s.id <;> rfl

/-- **The options for a size are those of the subscriptions of that size**, in their order, and nothing changes. -/
theorem configurableOptions_of_get (h : ∀ id a, (store.get id).run a = (.ok ((rows a).get? id), a)) (size : SizeClass)
    (subscriptions : List Subscription) (a : σ) :
    (configurableOptions store size subscriptions).run a
      = ((subscriptions.filter (·.size = size)).filterMap (optionIn? (rows a)), a) := by
  induction subscriptions with
  | nil => rfl
  | cons s rest ih =>
    unfold configurableOptions
    by_cases hsize : s.size = size
    · have hfirst : (s :: rest).filter (·.size = size) = s :: rest.filter (·.size = size) :=
        List.filter_cons_of_pos (by simpa using hsize)
      rw [if_pos hsize, StateT.run_bind, optionOf?_run h, hfirst, List.filterMap_cons]
      show (configurableOptions store size rest >>= fun more => pure ((optionIn? (rows a) s).toList ++ more)).run a = _
      rw [StateT.run_bind, ih]
      cases optionIn? (rows a) s <;> rfl
    · have hskipped : (s :: rest).filter (·.size = size) = rest.filter (·.size = size) :=
        List.filter_cons_of_neg (by simpa using hsize)
      rw [if_neg hsize, hskipped]
      show (configurableOptions store size rest >>= fun more => pure more).run a = _
      rw [StateT.run_bind, ih]
      rfl

/-- A store that works reads its table. -/
theorem configurableOptions_run (h : store.Works rows update) (size : SizeClass) (subscriptions : List Subscription)
    (a : σ) :
    (configurableOptions store size subscriptions).run a
      = ((subscriptions.filter (·.size = size)).filterMap (optionIn? (rows a)), a) :=
  configurableOptions_of_get h.get_run size subscriptions a

/-- A row that a subscription names is passed over. -/
theorem pruneRows_named {subscriptions : List Subscription} {id : String} (h : subscriptions.any (·.id == id) = true)
    (rest : List String) (a : σ) :
    (pruneRows store subscriptions (id :: rest)).run a = (pruneRows store subscriptions rest).run a := by
  rw [pruneRows, if_pos h]
  rfl

/-- Any other row is asked to be deleted, and its id is among the answers if that is done. -/
theorem pruneRows_dangling {subscriptions : List Subscription} {id : String}
    (h : subscriptions.any (·.id == id) = false) (rest : List String) (a : σ) :
    (pruneRows store subscriptions (id :: rest)).run a
      = let deleted := (store.delete id).run a
        let more := (pruneRows store subscriptions rest).run deleted.2
        (if deleted.1.isOk then id :: more.1 else more.1, more.2) := by
  obtain ⟨answer, b, hdelete⟩ : ∃ answer b, (store.delete id).run a = (answer, b) := ⟨_, _, rfl⟩
  rw [pruneRows, h]
  show (store.delete id >>= fun deleted => _).run a = _
  rw [StateT.run_bind, hdelete]
  cases answer <;> rfl

/-- One row after another: what pruning does to the first listed id. -/
theorem pruneRows_run_cons (h : store.Works rows update) (subscriptions : List Subscription) (id : String)
    (rest : List String) (a : σ) :
    ((pruneRows store subscriptions (id :: rest)).run a).2
      = ((pruneRows store subscriptions rest).run
          (if subscriptions.any (·.id == id) then a else update ((rows a).erase id) a)).2 := by
  cases hnamed : subscriptions.any (·.id == id) with
  | true =>
    rw [pruneRows_named hnamed]
    rfl
  | false =>
    rw [pruneRows_dangling hnamed, h.delete_run]
    rfl

/-- **Pruning takes away just the listed rows that no subscription names.** -/
theorem get?_pruneRows (h : store.Works rows update) (subscriptions : List Subscription) (ids : List String)
    (a : σ) (key : String) :
    (rows ((pruneRows store subscriptions ids).run a).2).get? key
      = if key ∈ ids ∧ subscriptions.any (·.id == key) = false then none else (rows a).get? key := by
  induction ids generalizing a with
  | nil => rfl
  | cons id rest ih =>
    rw [pruneRows_run_cons h, ih]
    simp only [List.mem_cons]
    by_cases hnamed : subscriptions.any (·.id == id) = true
    · rw [if_pos hnamed]
      by_cases hkey : key = id
      · subst hkey
        rw [if_neg (by simp [hnamed]), if_neg (by simp [hnamed])]
      · simp only [hkey, false_or]
    · rw [if_neg hnamed, h.rows_update, Table.get?_erase]
      by_cases hkey : key = id
      · subst hkey
        rw [if_pos rfl, ite_self, if_pos ⟨Or.inl rfl, by simpa using hnamed⟩]
      · simp only [hkey, false_or, if_false]

end
end HomeWidget
