import HomeWidget.Proofs.Timeline.Coherence
import HomeWidget.Proofs.Timeline.Retention

/-!
# The row of a refreshed subscription

Making an entry refreshes the store: a widget that arrived has its document under its own id, which is the address
that the document came from in the end. Requests, options and pruning find the row under that id. A subscription that
is answered from elsewhere has another id than its widget, and so does one whose id has white space around it: options
and pruning do not find the row of such a subscription.

Main results: `result_of_entry`, `refreshed_row`.
-/
namespace HomeWidget

/-! ## §1. The widget of an entry -/

@[simp]
theorem Entry.widget_ofOutcome (date : Timestamp) (s : Subscription) (o : Outcome) :
    (Entry.ofOutcome date s o).widget = o.widget? := rfl

/-- A restricted definition has the name that it had. -/
@[simp]
theorem Draft.name_restrict (supportsExtraLarge : Bool) (d : Draft Float) :
    (d.restrict supportsExtraLarge).name = d.name := by
  cases supportsExtraLarge <;> rfl

namespace Surroundings

variable {τ : Type}

/-- The entry of a subscription, made among surroundings. -/
def entry (p : Pipeline) (send : Transport (StateM τ)) (s : Subscription) (date : Timestamp) (a : Surroundings τ) :
    (Entry × Pipeline) × Surroundings τ :=
  (buildEntry (transport send) store p (some s) date).run a

theorem entry_eq (p : Pipeline) (send : Transport (StateM τ)) (s : Subscription) (date : Timestamp)
    (a : Surroundings τ) :
    entry p send s date a
      = ((.ofOutcome date s (resolve p send s.request a).1.1, (resolve p send s.request a).1.2),
          (resolve p send s.request a).2) := by
  unfold entry resolve
  exact buildEntry_run (transport send) store p s date a

/-- The widget of an entry came by a call, since the request of a subscription may not be answered from the store. -/
theorem result_of_entry {p : Pipeline} {send : Transport (StateM τ)} {s : Subscription} {date : Timestamp}
    {a : Surroundings τ} {w : Widget Float} (h : (entry p send s date a).1.1.widget = some w) :
    (resolve p send s.request a).1.1.result = .ok (w, .network) := by
  rw [entry_eq] at h
  dsimp only at h
  rw [Entry.widget_ofOutcome] at h
  obtain ⟨source, hresult⟩ := widget?_eq_some_iff.1 h
  have hallow : s.request.allowStored = false := rfl
  rw [hresult, source_eq_network hallow hresult]

/-! ## §2. The row of the widget -/

/-- **A refreshed subscription leaves the row of its widget.** If the entry of a subscription has a widget, then its
call was answered, the document is the row under the id of the widget, which is where the answer came from in the
end, and every other row is as it was. Over these rows

* every request for that id that may be answered from the store is, without a call and without any change;
* the options for a size offer the widget for every subscription to that id of that size;
* pruning spares the row, whatever is listed, if there is a subscription to that id.
-/
theorem refreshed_row (p : Pipeline) (send : Transport (StateM τ)) (s : Subscription) (date : Timestamp)
    (a b : Surroundings τ) (w : Widget Float) (h : (entry p send s date a).1.1.widget = some w)
    (hb : (entry p send s date a).2 = b) :
    ∃ response, ((send s.request.call).run a.line).1 = .ok response
      ∧ w.id = finalId s.request response
      ∧ b.rows.get? w.id = some response.body
      ∧ (∀ key, key ≠ w.id → b.rows.get? key = a.rows.get? key)
      ∧ (∀ (q : Pipeline) (send' : Transport (StateM τ)) (next : Request),
          next.target = w.id → next.allowStored = true →
          ∃ copy, copy.id = w.id ∧ (resolve q send' next b).1.1.result = .ok (copy, .cache)
            ∧ (resolve q send' next b).2 = b)
      ∧ (∀ (subscriptions : List Subscription) (u : Subscription), u ∈ subscriptions → u.id = w.id →
          ⟨u.id, w.draft.name, u.size⟩ ∈ ((configurableOptions store u.size subscriptions).run b).1)
      ∧ ∀ (subscriptions : List Subscription) (ids : List String) (u : Subscription), u ∈ subscriptions → u.id = w.id →
          ((pruneRows store subscriptions ids).run b).2.rows.get? w.id = some response.body := by
  have hkeep : s.request.keep = true := rfl
  obtain ⟨response, draft, hanswer, hfinal, hread, hdraft, hafter⟩ := row_of_network hkeep (result_of_entry h)
  have hrows : b.rows = a.rows.insert w.id response.body := by rw [← hb, entry_eq, hafter]
  have hrow : b.rows.get? w.id = some response.body := by rw [hrows, Table.get?_insert, if_pos rfl]
  refine ⟨response, hanswer, hfinal, hrow, ?_, ?_, ?_, ?_⟩
  · intro key hkey
    rw [hrows, Table.get?_insert, if_neg hkey]
  · intro q send' next htarget hallow
    have hdecode : q.options.decode response.body next.target
        = .ok ⟨w.id, draft.restrict q.options.supportsExtraLarge⟩ := decode_eq_ok_iff.2 ⟨draft, hread, by rw [htarget]⟩
    have hserved := resolve_of_row q send' hallow (by rw [htarget]; exact hrow) hdecode
    refine ⟨⟨w.id, draft.restrict q.options.supportsExtraLarge⟩, rfl, ?_, ?_⟩
    · rw [hserved]
      rfl
    · rw [hserved]
  · intro subscriptions u hu hid
    have hoption : optionIn? b.rows u = some ⟨u.id, w.draft.name, u.size⟩ := by
      unfold optionIn?
      rw [hid, hrow, Option.bind_some, hread, ← hdraft, Draft.name_restrict]
      rfl
    rw [configurableOptions_run works_store]
    exact List.mem_filterMap.2 ⟨u, List.mem_filter.2 ⟨hu, decide_eq_true rfl⟩, hoption⟩
  · intro subscriptions ids u hu hid
    have hnamed : subscriptions.any (·.id == w.id) = true := List.any_eq_true.2 ⟨u, hu, by rw [hid, beq_self_eq_true]⟩
    have hspared := get?_pruneRows works_store subscriptions ids b w.id
    rw [if_neg (by rw [hnamed]; simp), hrow] at hspared
    exact hspared

/-- Answers every call with a plain document that came from an address. -/
def servedFrom (address : String) : Transport (StateM Unit) := fun _ =>
  pure (.ok ⟨200, World.plainDocument "n", address⟩)

/-- The first refresh of a subscription, over a store without rows: its entry, and what is around it afterwards. -/
def refreshed (s : Subscription) (address : String) : (Entry × Pipeline) × Surroundings Unit :=
  entry (Pipeline.new .usual) (servedFrom address) s ⟨0, 0, 0⟩ ⟨.empty, (), []⟩

/-- A subscription that is answered from elsewhere, and one to the id that its widget has. -/
theorem refreshed_row_elsewhere :
    let s : Subscription := ⟨"http://a", none, none, "main", .small⟩
    let u : Subscription := ⟨"http://b", none, none, "main", .medium⟩
    let next : Request := ⟨" http://b", none, none, true, false⟩
    let b := (refreshed s "http://b").2
    (refreshed s "http://b").1.1.widget.map (·.id) = some "http://b"
      ∧ b.rows.get? "http://a" = none
      ∧ (resolve (Pipeline.new .usual) (servedFrom "") next b).2 = b
      ∧ (∃ name, ⟨"http://b", name, .medium⟩ ∈ ((configurableOptions store .medium [s, u]).run b).1)
      ∧ ((pruneRows store [s, u] ["http://a", "http://b"]).run b).2.rows.get? "http://b"
        = some (World.plainDocument "n") := by
  intro s u next
  have hrun : (refreshed s "http://b").1.1.widget.map (·.id) = some "http://b" := by decide +kernel
  obtain ⟨w, hwidget, hid⟩ := Option.map_eq_some_iff.1 hrun
  generalize hb : (refreshed s "http://b").2 = b
  unfold refreshed at hwidget hb
  obtain ⟨response, hanswer, -, -, hothers, hserved, hoffered, hspared⟩ :=
    refreshed_row (Pipeline.new .usual) (servedFrom "http://b") s ⟨0, 0, 0⟩ ⟨.empty, (), []⟩ b w hwidget hb
  obtain rfl : ⟨200, World.plainDocument "n", "http://b"⟩ = response := Except.ok.inj hanswer
  refine ⟨hrun, ?_, ?_, ?_, ?_⟩
  · exact hothers "http://a" (by rw [hid]; decide)
  · obtain ⟨copy, -, -, hquiet⟩ := hserved (Pipeline.new .usual) (servedFrom "") next (by rw [hid]; decide +kernel) rfl
    exact hquiet
  · exact ⟨w.draft.name, hoffered [s, u] u (by simp) hid.symm⟩
  · have hkept := hspared [s, u] ["http://a", "http://b"] u (by simp) hid.symm
    rw [hid] at hkept
    exact hkept

/-- **A subscription need not own the row that its refresh writes.** One that is answered from elsewhere does not find
it by a request, and neither it nor one with white space before its id is offered or keeps the row from being pruned. -/
theorem refreshed_row_not_owned :
    (let s : Subscription := ⟨"http://a", none, none, "main", .small⟩
     let again : Request := ⟨s.id, none, none, true, false⟩
     let b := (refreshed s "http://b").2
     (refreshed s "http://b").1.1.widget.isSome = true ∧ b.rows.names = ["http://b"]
      ∧ (resolve (Pipeline.new .usual) (servedFrom "http://b") again b).1.1.result.toOption.map (·.2) = some .network
      ∧ ((configurableOptions store s.size [s]).run b).1 = []
      ∧ ((pruneRows store [s] b.rows.names).run b).2.rows.names = [])
    ∧ let s : Subscription := ⟨" http://a", none, none, "main", .small⟩
      let b := (refreshed s "").2
      (refreshed s "").1.1.widget.isSome = true ∧ b.rows.names = ["http://a"]
        ∧ ((configurableOptions store s.size [s]).run b).1 = []
        ∧ ((pruneRows store [s] b.rows.names).run b).2.rows.names = [] := by
  decide +kernel

end Surroundings
end HomeWidget
