import HomeWidget.Proofs.Fetch.StoredCopy

/-!
# A store gives advice

A store may fail to read or to write, may have lost a row, or may hold one that cannot be decoded. Whatever it does, a
request ends as it would without the store: what a host and a transport see of a request depends on the store through
nothing but the document that it finds for the id, and only if the request may be answered so. A request that fails
writes nothing.

Main results: `seen_resolve`, `kept_of_failure`, `trouble_changes_no_answer`.
-/
namespace HomeWidget

/-! ## §1. Settings -/

/-- What is around a pipeline over a store of any kind: what the store keeps, whatever the transport keeps between two
calls, and the calls made so far, last first. -/
structure Setting (σ τ : Type) where
  kept : σ
  line : τ
  calls : List Call

namespace Setting

variable {σ τ : Type}

/-- A store in a setting. -/
def store (s : RowStore (StateM σ)) : RowStore (StateM (Setting σ τ)) := s.within kept fun kept a => { a with kept }

/-- A transport of which every call is noted. -/
def transport (send : Transport (StateM τ)) : Transport (StateM (Setting σ τ)) := fun call a =>
  let (answer, line) := (send call).run a.line
  (answer, { a with line, calls := call :: a.calls })

/-- A request in a setting. -/
def resolve (s : RowStore (StateM σ)) (p : Pipeline) (send : Transport (StateM τ)) (request : Request)
    (a : Setting σ τ) : (Outcome × Pipeline) × Setting σ τ :=
  (p.resolve (transport send) (store s) request).run a

/-- What a host and a transport see of a request: its outcome and the pipeline after it, what the transport then keeps,
and the calls. -/
def seen (ended : (Outcome × Pipeline) × Setting σ τ) : (Outcome × Pipeline) × τ × List Call :=
  (ended.1, ended.2.line, ended.2.calls)

/-! ## §2. A request in a setting -/

theorem rowAt_store (s : RowStore (StateM σ)) (id : String) (a : Setting σ τ) :
    (store s).rowAt id a = s.rowAt id a.kept := rfl

theorem afterReading_store (s : RowStore (StateM σ)) (request : Request) (a : Setting σ τ) :
    (store s).afterReading request a = { a with kept := s.afterReading request a.kept } := by
  unfold RowStore.afterReading
  split <;> rfl

theorem afterWriting_store (s : RowStore (StateM σ)) (c : Completion) (a : Setting σ τ) :
    (store s).afterWriting c a = { a with kept := s.afterWriting c a.kept } := by
  unfold RowStore.afterWriting
  cases c.written? <;> rfl

/-- How a request that starts so is seen to end. No store has a part in it. -/
def seenFrom (p : Pipeline) (send : Transport (StateM τ)) (request : Request) (line : τ) (calls : List Call) :
    Started → (Outcome × Pipeline) × τ × List Call
  | .answered result => ((p.outcome (p.issue request).1 request result, (p.issue request).2), line, calls)
  | .calling call =>
    let brought := (send call).run line
    ((p.outcome (p.issue request).1 request (resolutionOf p.options request brought.1), (p.issue request).2),
      brought.2, call :: calls)

section

variable (s : RowStore (StateM σ)) (p : Pipeline) (send : Transport (StateM τ)) (request : Request) (a : Setting σ τ)

/-- **The store has a part in the start only**, by the row that it finds. -/
theorem seen_resolve :
    seen (resolve s p send request a)
      = seenFrom p send request a.line a.calls (startOver p.options (s.rowAt request.target a.kept) request) := by
  unfold resolve
  rw [Pipeline.resolve_eq, rowAt_store, afterReading_store]
  cases startOver p.options (s.rowAt request.target a.kept) request with
  | answered result => rfl
  | calling call =>
    dsimp only
    rw [afterWriting_store]
    rfl

/-- A request that fails leaves the store as reading it once leaves it. -/
theorem kept_of_failure {failure : Failure} (h : (resolve s p send request a).1.1.result = .error failure) :
    (resolve s p send request a).2.kept = s.afterReading request a.kept := by
  unfold resolve at h ⊢
  rw [Pipeline.resolve_eq, rowAt_store, afterReading_store] at h ⊢
  cases hstart : startOver p.options (s.rowAt request.target a.kept) request with
  | answered result => rfl
  | calling call =>
    rw [hstart] at h
    dsimp only at h ⊢
    rw [afterWriting_store]
    exact RowStore.afterWriting_of_failure s h _

end

/-! ## §3. Trouble with a store -/

/-- A store is of no help with an id: reading fails, or finds nothing, or finds what cannot be decoded. -/
inductive Misses (s : RowStore (StateM σ)) (id : String) (kept : σ) : Prop
  | fails (e : StorageError) (h : ((s.get id).run kept).1 = .error e)
  | missing (h : ((s.get id).run kept).1 = .ok none)
  | corrupt (bytes : Bytes) (e : DefinitionError) (h : ((s.get id).run kept).1 = .ok (some bytes))
    (hread : Draft.readBytes bytes = .error e)

/-- A store that is of no help answers no request. -/
theorem Misses.storedIn?_eq {s : RowStore (StateM σ)} {request : Request} {kept : σ} (h : Misses s request.target kept)
    (options : FetchOptions) : storedIn? options (s.rowAt request.target kept) request = none := by
  unfold storedIn? RowStore.rowAt
  cases h with
  | fails e h =>
    rw [h]
    exact ite_self none
  | missing h =>
    rw [h]
    exact ite_self none
  | corrupt bytes e h hread =>
    rw [h]
    dsimp only
    unfold FetchOptions.decode
    rw [Option.bind_some, hread]
    exact ite_self none

/-- A request starts in the same way over rows that answer it in the same way. -/
theorem startOver_congr {options : FetchOptions} {row row' : Option Bytes} {request : Request}
    (h : storedIn? options row request = storedIn? options row' request) :
    startOver options row request = startOver options row' request := by
  unfold startOver
  rw [h]

/-- **Trouble with a store changes no answer.** What is seen of a request, its outcome and its call, is the same

* over any two stores that are of no help with its id, in whatever way each of them is;
* whatever a store says and does when it is written to;
* over any two stores at all, if the request may not be answered from a store.

And if the request fails, then the rows of the store are as they were, provided that reading changes none. -/
theorem trouble_changes_no_answer (p : Pipeline) (send : Transport (StateM τ)) (request : Request) (line : τ)
    (calls : List Call) :
    (∀ (σ σ' : Type) (s : RowStore (StateM σ)) (s' : RowStore (StateM σ')) (kept : σ) (kept' : σ'),
        Misses s request.target kept → Misses s' request.target kept' →
        seen (resolve s p send request ⟨kept, line, calls⟩) = seen (resolve s' p send request ⟨kept', line, calls⟩))
      ∧ (∀ (σ : Type) (s : RowStore (StateM σ)) (put' : String → Bytes → StateM σ (Except StorageError Unit)) (kept : σ),
        seen (resolve { s with put := put' } p send request ⟨kept, line, calls⟩)
          = seen (resolve s p send request ⟨kept, line, calls⟩))
      ∧ (request.allowStored = false →
        ∀ (σ σ' : Type) (s : RowStore (StateM σ)) (s' : RowStore (StateM σ')) (kept : σ) (kept' : σ'),
        seen (resolve s p send request ⟨kept, line, calls⟩) = seen (resolve s' p send request ⟨kept', line, calls⟩))
      ∧ ∀ (σ ρ : Type) (s : RowStore (StateM σ)) (kept : σ) (rows : σ → ρ),
        (∀ k, rows ((s.get request.target).run k).2 = rows k) →
        ∀ failure, (resolve s p send request ⟨kept, line, calls⟩).1.1.result = .error failure →
        rows (resolve s p send request ⟨kept, line, calls⟩).2.kept = rows kept := by
  refine ⟨?_, ?_, ?_, ?_⟩
  · intro σ σ' s s' kept kept' hmiss hmiss'
    have hstored := (hmiss.storedIn?_eq p.options).trans (hmiss'.storedIn?_eq p.options).symm
    rw [seen_resolve, seen_resolve, startOver_congr hstored]
  · intro σ s put' kept
    rw [seen_resolve, seen_resolve]
    -- the row that a store finds does not depend on how it is written to
    rfl
  · intro hallow σ σ' s s' kept kept'
    have hstored : ∀ row, storedIn? p.options row request = none := fun row =>
      storedIn?_of_not_allowed p.options row hallow
    rw [seen_resolve, seen_resolve, startOver_congr ((hstored _).trans (hstored _).symm)]
  · intro σ ρ s kept rows hread failure hfailure
    rw [kept_of_failure s p send request _ hfailure]
    unfold RowStore.afterReading
    split
    · exact hread kept
    · rfl

/-- A store of which everything fails, one with a row that cannot be decoded, one that cannot be written to, a server that
is out of order and one that has a document. -/
theorem trouble_changes_no_answer_corrupt :
    let p := Pipeline.new .usual
    let send : Transport (StateM Unit) := fun _ => pure (.ok ⟨500, [], ""⟩)
    let request : Request := ⟨" http://a", none, none, true, true⟩
    let fresh : Request := ⟨" http://a", none, none, false, true⟩
    let broken := RowStore.memory.failing (fun _ => true) "disk on fire"
    let rows : RowStore.Rows := .ofList [("http://a", Utf8.ofString "\x7b")]
    let document := Utf8.ofString "\x7b\"name\":\"\",\"data\":\x7b\x7d,\"layouts\":\x7b\x7d\x7d"
    let serve : Transport (StateM Unit) := fun _ => pure (.ok ⟨200, document, ""⟩)
    let full : RowStore (StateM RowStore.Rows) :=
      { RowStore.memory with put := fun _ _ => pure (.error (.broken "disk full")) }
    seen (resolve broken p send request ⟨.empty, (), []⟩) = seen (resolve .memory p send request ⟨rows, (), []⟩)
      ∧ seen (resolve full p serve request ⟨rows, (), []⟩) = seen (resolve .memory p serve request ⟨rows, (), []⟩)
      ∧ (resolve full p serve request ⟨rows, (), []⟩).2.kept.get? "http://a" = some (Utf8.ofString "\x7b")
      ∧ (resolve .memory p serve request ⟨rows, (), []⟩).2.kept.get? "http://a" = some document
      ∧ seen (resolve broken p send fresh ⟨.empty, (), []⟩) = seen (resolve .memory p send fresh ⟨rows, (), []⟩)
      ∧ (resolve .memory p send request ⟨rows, (), []⟩).2.kept = rows := by
  intro p send request fresh broken rows document serve full
  obtain ⟨hmisses, -, -, hrows⟩ := trouble_changes_no_answer p send request () []
  obtain ⟨-, hput, -, -⟩ := trouble_changes_no_answer p serve request () []
  obtain ⟨-, -, hfresh, -⟩ := trouble_changes_no_answer p send fresh () []
  obtain ⟨e, hread⟩ : ∃ e, Draft.readBytes (Utf8.ofString "\x7b") = .error e :=
    exists_error_of_not_isOk (by decide +kernel)
  obtain ⟨failure, hfailure⟩ : ∃ failure,
      (resolve .memory p send request ⟨rows, (), []⟩).1.1.result = .error failure :=
    exists_error_of_not_isOk (by decide +kernel)
  have hcorrupt : Misses RowStore.memory request.target rows := .corrupt _ e (by decide +kernel) hread
  exact ⟨hmisses _ _ broken .memory .empty rows (.fails _ rfl) hcorrupt, hput _ .memory full.put rows,
    by decide +kernel, by decide +kernel, hfresh rfl _ _ broken .memory .empty rows,
    hrows _ _ .memory rows id (fun _ => rfl) failure hfailure⟩

end Setting
end HomeWidget
