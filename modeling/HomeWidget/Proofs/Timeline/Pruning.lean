import HomeWidget.Proofs.Fetch.Interleaving
import HomeWidget.Proofs.Timeline.Retention
import Mathlib.Data.List.Basic

/-!
# Pruning the store

The rows of a store are listed, and those that no subscription names are deleted one after the other. A deletion may be
refused, for whatever reason; it is then passed over, and its row stays. So what went is said exactly, in the order of the
list and as often as it was listed, and it is all that went. The rows that subscriptions name were never asked for, and
the options for configuring a surface are read off just these: whoever subscribes does not notice.

Main results: `pruneRows_refusing`, `filterMap_optionIn?_filter`, `pruned_exactly`.
-/
namespace HomeWidget

namespace RowStore

/-! ## §1. A store that refuses -/

/-- A table, and how many deletions were asked of it so far. -/
structure Asked where
  rows : Rows
  deletions : Nat

/-- The store in memory, with some of its deletions refused: the `n`-th one, if there is a reason to. A deletion that is
refused changes no row. -/
def refusing (refusal : Nat → Option StorageError) : RowStore (StateM Asked) :=
  { memory.within Asked.rows fun rows a => { a with rows } with
    delete := fun id a =>
      match refusal a.deletions with
      | some e => (.error e, { a with deletions := a.deletions + 1 })
      | none =>
        let (answer, rows) := (memory.delete id).run a.rows
        (answer, ⟨rows, a.deletions + 1⟩) }

variable (refusal : Nat → Option StorageError)

theorem get_refusing (id : String) (a : Asked) :
    ((refusing refusal).get id).run a = (.ok (a.rows.get? id), a) := rfl

/-- A refused deletion takes no row. -/
theorem delete_refused {a : Asked} {e : StorageError} (h : refusal a.deletions = some e) (id : String) :
    ((refusing refusal).delete id).run a = (.error e, ⟨a.rows, a.deletions + 1⟩) := by
  show (match refusal a.deletions with | some e => _ | none => _) = _
  rw [h]

/-- A granted deletion takes the row of its id. -/
theorem delete_granted {a : Asked} (h : refusal a.deletions = none) (id : String) :
    ((refusing refusal).delete id).run a = (.ok (), ⟨a.rows.erase id, a.deletions + 1⟩) := by
  show (match refusal a.deletions with | some e => _ | none => _) = _
  rw [h]
  rfl

/-- Of ids whose deletion is asked for in turn, from the `n`-th one on, those whose deletion is not refused. -/
def granted (n : Nat) (ids : List String) : List String :=
  ((ids.zipIdx n).filter fun call => (refusal call.2).isNone).map Prod.fst

theorem granted_cons (n : Nat) (id : String) (ids : List String) :
    granted refusal n (id :: ids)
      = if (refusal n).isNone then id :: granted refusal (n + 1) ids else granted refusal (n + 1) ids := by
  unfold granted
  rw [List.zipIdx_cons, List.filter_cons]
  split <;> rfl

/-- No other id is granted than those that are asked for. -/
theorem mem_of_mem_granted {n : Nat} {ids : List String} {id : String} (h : id ∈ granted refusal n ids) : id ∈ ids := by
  obtain ⟨m, hm, rfl⟩ := List.mem_map.1 h
  exact List.fst_mem_of_mem_zipIdx (List.mem_filter.1 hm).1

end RowStore

/-! ## §2. What pruning does -/

/-- The listed ids that no subscription has. -/
def dangling (subscriptions : List Subscription) (ids : List String) : List String :=
  ids.filter (· ∉ subscriptions.map (·.id))

theorem any_eq_decide (subscriptions : List Subscription) (id : String) :
    subscriptions.any (·.id == id) = decide (id ∈ subscriptions.map (·.id)) := by
  rw [Bool.eq_iff_iff, List.any_eq_true, decide_eq_true_eq, List.mem_map]
  simp only [beq_iff_eq]

open RowStore

/-- **Pruning deletes the dangling rows in turn**, says which deletions were granted, and leaves every other row. -/
theorem pruneRows_refusing (refusal : Nat → Option StorageError) (subscriptions : List Subscription) (ids : List String)
    (a : Asked) :
    (pruneRows (refusing refusal) subscriptions ids).run a
      = (granted refusal a.deletions (dangling subscriptions ids),
          ⟨a.rows.filter fun id _ => id ∉ granted refusal a.deletions (dangling subscriptions ids),
            a.deletions + (dangling subscriptions ids).length⟩) := by
  induction ids generalizing a with
  | nil =>
    have hkept : (a.rows.filter fun id _ => id ∉ granted refusal a.deletions (dangling subscriptions [])) = a.rows :=
      Table.filter_eq_self (fun _ _ => rfl) a.rows
    rw [hkept]
    rfl
  | cons id rest ih =>
    have hany := any_eq_decide subscriptions id
    by_cases hnamed : id ∈ subscriptions.map (·.id)
    · have hlist : dangling subscriptions (id :: rest) = dangling subscriptions rest :=
        List.filter_cons_of_neg (by simpa using hnamed)
      rw [pruneRows_named (hany.trans (decide_eq_true hnamed)), hlist, ih]
    · have hlist : dangling subscriptions (id :: rest) = id :: dangling subscriptions rest :=
        List.filter_cons_of_pos (by simpa using hnamed)
      rw [pruneRows_dangling (hany.trans (decide_eq_false hnamed)), hlist, granted_cons, List.length_cons]
      cases hrefusal : refusal a.deletions with
      | some e =>
        rw [delete_refused refusal hrefusal]
        dsimp only
        rw [ih, Nat.add_assoc, Nat.add_comm 1]
        rfl
      | none =>
        rw [delete_granted refusal hrefusal]
        dsimp only
        rw [ih, Nat.add_assoc, Nat.add_comm 1, Table.filter_erase]
        rfl

/-- **Options are read off the rows of subscriptions**: a store that loses other rows offers the same. -/
theorem filterMap_optionIn?_filter {rows : Rows} {keep : String → Bytes → Bool} {subscriptions : List Subscription}
    (h : ∀ s ∈ subscriptions, ∀ bytes, keep s.id bytes = true) :
    subscriptions.filterMap (optionIn? (rows.filter keep)) = subscriptions.filterMap (optionIn? rows) := by
  refine List.filterMap_congr fun s hs => ?_
  unfold optionIn?
  rw [Table.get?_filter]
  cases rows.get? s.id with
  | none => rfl
  | some bytes => rw [Option.filter_some_pos (h s hs bytes)]

/--
**Pruning is exact, and no subscription notices it.** Whatever rows a store has, whatever is listed, in any order, with
repetitions and with ids that are not stored, and whichever of its deletions the store refuses: pruning says, in order,
which of the listed ids no subscription has and were deleted when their turn came; the rows afterwards are those before
without just these; and the options for every size are the same before and after.
-/
theorem pruned_exactly (refusal : Nat → Option StorageError) (subscriptions : List Subscription) (ids : List String)
    (a : Asked) :
    let removed := granted refusal a.deletions (dangling subscriptions ids)
    let pruned := (pruneRows (refusing refusal) subscriptions ids).run a
    pruned.1 = removed
      ∧ pruned.2.rows = a.rows.filter (fun id _ => id ∉ removed)
      ∧ ∀ size, ((configurableOptions (refusing refusal) size subscriptions).run pruned.2).1
          = ((configurableOptions (refusing refusal) size subscriptions).run a).1 := by
  intro removed pruned
  have hpruned := pruneRows_refusing refusal subscriptions ids a
  have hrows : pruned.2.rows = a.rows.filter fun id _ => id ∉ removed := congrArg (·.2.rows) hpruned
  refine ⟨congrArg Prod.fst hpruned, hrows, fun size => ?_⟩
  rw [configurableOptions_of_get (get_refusing refusal), configurableOptions_of_get (get_refusing refusal)]
  dsimp only
  rw [hrows]
  apply filterMap_optionIn?_filter
  intro s hs bytes
  have hnamed : s.id ∈ subscriptions.map (·.id) := List.mem_map_of_mem (List.mem_filter.1 hs).1
  -- what subscriptions name was not asked to be deleted
  refine decide_eq_true fun hremoved => ?_
  have hasked := List.mem_filter.1 (mem_of_mem_granted refusal hremoved)
  exact of_decide_eq_true hasked.2 hnamed

/-- A list with an id that is subscribed to, one that is listed twice, one whose deletion is refused, and one that is not
stored. -/
theorem pruned_exactly_refused :
    let s : Subscription := ⟨"b", none, none, "main", .small⟩
    let refusal : Nat → Option StorageError := fun n => if n = 1 then some (.broken "disk on fire") else none
    let rows : Rows := .ofList [("a", []), ("b", World.plainDocument "n"), ("c", []), ("d", [])]
    let pruned := (pruneRows (refusing refusal) [s] ["c", "b", "a", "e", "c"]).run ⟨rows, 0⟩
    pruned.1 = ["c", "e", "c"] ∧ pruned.2.rows.names = ["a", "b", "d"]
      ∧ ((configurableOptions (refusing refusal) .small [s]).run pruned.2).1 = [⟨"b", "n", .small⟩] := by
  intro s refusal rows pruned
  obtain ⟨hremoved, hrows, hoptions⟩ := pruned_exactly refusal [s] ["c", "b", "a", "e", "c"] ⟨rows, 0⟩
  refine ⟨hremoved.trans (by decide), ?_, (hoptions .small).trans (by decide +kernel)⟩
  rw [hrows]
  decide +kernel

end HomeWidget
