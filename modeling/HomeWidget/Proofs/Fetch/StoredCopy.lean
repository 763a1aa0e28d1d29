import HomeWidget.Proofs.Fetch.Interleaving
import HomeWidget.Proofs.Text.Cut

/-!
# The stored copy of a widget

A document that a call brought is stored under the id of its widget. That id is an address without white space around
it, so that a request for it looks for the row under which the document is. Whoever makes such a request, over the
same rows, gets the same document from the store, filtered by what the one who asks can show.

The requests are made among surroundings in which every call is noted, so that it can be said that there was none.

Main results: `resolve_of_row`, `resolve_eq_ok`, `row_of_network`, `stored_copy_agrees`.
-/
namespace HomeWidget

/-! ## §1. Surroundings -/

/-- What is around a pipeline: the rows of a store in memory, whatever the transport keeps between two calls, and the
calls made so far, last first. -/
structure Surroundings (τ : Type) where
  rows : RowStore.Rows
  line : τ
  calls : List Call

namespace Surroundings

variable {τ : Type}

/-- The store in memory. -/
def store : RowStore (StateM (Surroundings τ)) := RowStore.memory.within rows fun rows a => { a with rows }

/-- A transport of which every call is noted. -/
def transport (send : Transport (StateM τ)) : Transport (StateM (Surroundings τ)) := fun call a =>
  let (answer, line) := (send call).run a.line
  (answer, { a with line, calls := call :: a.calls })

theorem works_store : (store : RowStore (StateM (Surroundings τ))).Works rows fun rows a => { a with rows } :=
  ⟨fun _ _ => rfl, fun _ _ _ => rfl, fun _ _ => rfl, fun _ => rfl, fun _ _ => rfl⟩

/-- A request among surroundings, over their store and with its calls noted. -/
def resolve (p : Pipeline) (send : Transport (StateM τ)) (request : Request) (a : Surroundings τ) :
    (Outcome × Pipeline) × Surroundings τ :=
  (p.resolve (transport send) store request).run a

end Surroundings

/-! ## §2. What a request leaves, and what it finds -/

theorem decode_eq_ok_iff {options : FetchOptions} {bytes : Bytes} {id : String} {w : Widget Float} :
    options.decode bytes id = .ok w
      ↔ ∃ draft, Draft.readBytes bytes = .ok draft ∧ ⟨id, draft.restrict options.supportsExtraLarge⟩ = w := by
  unfold FetchOptions.decode
  cases Draft.readBytes bytes with
  | error e => simp
  | ok draft => simp

/-- The id of a document is an address without white space around it. -/
theorem trimmed_finalId (request : Request) (response : Response) :
    Text.trimmed (finalId request response) = finalId request response := by
  unfold finalId
  dsimp only
  split
  · exact Text.trimmed_trimmed request.id
  · exact Text.trimmed_trimmed response.finalUrl

/-- An answer makes a widget of a request only by success, with a document that can be decoded. -/
theorem resolutionOf_eq_ok {options : FetchOptions} {request : Request} {answer : Answer} {w : Widget Float}
    {source : Source} (h : resolutionOf options request answer = .ok (w, source)) :
    ∃ response, answer = .ok response ∧ response.status = 200
      ∧ options.decode response.body (finalId request response) = .ok w ∧ source = .network := by
  unfold resolutionOf at h
  split at h
  next => cases h
  next response =>
    by_cases hstatus : response.status = 200
    · rw [if_pos hstatus] at h
      split at h
      next => cases h
      next widget hdecode =>
        obtain ⟨rfl, rfl⟩ := Prod.mk.inj (Except.ok.inj h)
        exact ⟨response, rfl, hstatus, hdecode, rfl⟩
    · rw [if_neg hstatus] at h
      split at h <;> cases h

/-- What the first step answers with a widget comes from the store. -/
theorem startOver_eq_answered_ok {options : FetchOptions} {row : Option Bytes} {request : Request} {w : Widget Float}
    {source : Source} (h : startOver options row request = .answered (.ok (w, source))) :
    request.allowStored = true ∧ source = .cache := by
  unfold startOver at h
  split at h
  next widget hstored =>
    unfold storedIn? at hstored
    split at hstored
    next hallow =>
      obtain ⟨-, rfl⟩ := Prod.mk.inj (Except.ok.inj (Started.answered.inj h))
      exact ⟨hallow, rfl⟩
    next => cases hstored
  next => split at h <;> cases h

namespace Surroundings

variable {τ : Type} {p : Pipeline} {send : Transport (StateM τ)} {request : Request} {a : Surroundings τ}
  {w : Widget Float} {source : Source}

/-- **A row that can be decoded answers a request for it**, without a call and without any change. -/
theorem resolve_of_row (p : Pipeline) (send : Transport (StateM τ)) {bytes : Bytes} (hallow : request.allowStored = true)
    (hrow : a.rows.get? request.target = some bytes) (hdecode : p.options.decode bytes request.target = .ok w) :
    resolve p send request a = ((p.outcome (p.issue request).1 request (.ok (w, .cache)), (p.issue request).2), a) := by
  refine Pipeline.resolve_run_answered works_store (transport send) ?_
  unfold startOver storedIn?
  rw [if_pos hallow, hrow, Option.bind_some, hdecode]
  rfl

/-- How a request ends with a widget: from the store, if it may, or by a call that was answered with a document. -/
theorem resolve_eq_ok (hresult : (resolve p send request a).1.1.result = .ok (w, source)) :
    (source = .cache ∧ request.allowStored = true)
      ∨ ∃ response draft, source = .network ∧ ((send request.call).run a.line).1 = .ok response
        ∧ response.status = 200 ∧ Draft.readBytes response.body = .ok draft
        ∧ ⟨finalId request response, draft.restrict p.options.supportsExtraLarge⟩ = w
        ∧ (resolve p send request a).2.rows = (Completion.mk request (.ok response)).rowsAfter a.rows := by
  unfold resolve at hresult ⊢
  rcases startOver_cases p.options (a.rows.get? request.target) request with ⟨hstart, -⟩ | ⟨⟨result, hstart⟩, -⟩
  · -- the call went out, and its answer made the result
    obtain ⟨answer, b, hcall⟩ : ∃ answer b, (transport send request.call).run a = (answer, b) := ⟨_, _, rfl⟩
    have hanswer : ((send request.call).run a.line).1 = answer := congrArg Prod.fst hcall
    have hrows : a.rows = b.rows := congrArg (·.2.rows) hcall
    rw [Pipeline.resolve_run_calling works_store hstart hcall] at hresult ⊢
    obtain ⟨response, rfl, hstatus, hdecode, hsource⟩ := resolutionOf_eq_ok hresult
    obtain ⟨draft, hread, hw⟩ := decode_eq_ok_iff.1 hdecode
    refine Or.inr ⟨response, draft, hsource, hanswer, hstatus, hread, hw, ?_⟩
    rw [hrows]
  · -- an answer of the first step comes from the store, if it is a widget at all
    rw [Pipeline.resolve_run_answered works_store (transport send) hstart] at hresult
    obtain ⟨hallow, hsource⟩ := startOver_eq_answered_ok (hstart.trans (congrArg Started.answered hresult))
    exact Or.inl ⟨hsource, hallow⟩

/-- A request that may not be answered from the store is answered by a call, if by a widget at all. -/
theorem source_eq_network (hallow : request.allowStored = false)
    (hresult : (resolve p send request a).1.1.result = .ok (w, source)) : source = .network := by
  rcases resolve_eq_ok hresult with ⟨-, hallowed⟩ | ⟨-, -, hsource, -⟩
  · rw [hallow] at hallowed
    cases hallowed
  · exact hsource

/-- **A widget that came by a call is in the store**, if the request asked for that: its document is the row under
its id, and every other row is as it was. -/
theorem row_of_network (hkeep : request.keep = true)
    (hresult : (resolve p send request a).1.1.result = .ok (w, .network)) :
    ∃ response draft, ((send request.call).run a.line).1 = .ok response ∧ w.id = finalId request response
      ∧ Draft.readBytes response.body = .ok draft ∧ draft.restrict p.options.supportsExtraLarge = w.draft
      ∧ (resolve p send request a).2.rows = a.rows.insert w.id response.body := by
  rcases resolve_eq_ok hresult with ⟨hcache, -⟩ | ⟨response, draft, -, hanswer, hstatus, hread, hw, hrows⟩
  · cases hcache
  · have hid : w.id = finalId request response := by rw [← hw]
    have hdraft : draft.restrict p.options.supportsExtraLarge = w.draft := by rw [← hw]
    have hwrites : (Completion.mk request (.ok response)).Writes w.id :=
      Completion.writes_iff.2 ⟨response, draft, rfl, hkeep, hstatus, hread, hid.symm⟩
    refine ⟨response, draft, hanswer, hid, hread, hdraft, ?_⟩
    rw [hrows, Completion.rowsAfter_of_writes hwrites rfl]

/-! ## §3. The copy -/

/-- **The stored copy agrees with the live one.** If a request that stores what it brings ends with a widget from a
call, then a request for the id of that widget that a pipeline makes over the same rows, and that may be answered from
the store, is answered from the store: it ends with what the pipeline itself makes of the document that the call
brought, under that id, makes no call and changes nothing. If both pipelines show the same sizes, that is the widget. -/
theorem stored_copy_agrees {τ τ' : Type} (send : Transport (StateM τ)) (send' : Transport (StateM τ'))
    (p p' : Pipeline) (request next : Request) (a : Surroundings τ) (b : Surroundings τ') (w : Widget Float)
    (hkeep : request.keep = true) (hresult : (resolve p send request a).1.1.result = .ok (w, .network))
    (hrows : b.rows = (resolve p send request a).2.rows) (hid : next.id = w.id) (hallow : next.allowStored = true) :
    ∃ response copy, ((send request.call).run a.line).1 = .ok response
      ∧ p'.options.decode response.body w.id = .ok copy
      ∧ (resolve p' send' next b).1.1.result = .ok (copy, .cache)
      ∧ (resolve p' send' next b).2 = b
      ∧ (p'.options.supportsExtraLarge = p.options.supportsExtraLarge → copy = w) := by
  obtain ⟨response, draft, hanswer, hfinal, hread, hdraft, hafter⟩ := row_of_network hkeep hresult
  have hcopy : p'.options.decode response.body w.id = .ok ⟨w.id, draft.restrict p'.options.supportsExtraLarge⟩ :=
    decode_eq_ok_iff.2 ⟨draft, hread, rfl⟩
  have htarget : next.target = w.id := by
    show Text.trimmed next.id = w.id
    rw [hid, hfinal, trimmed_finalId]
  have hrow : b.rows.get? next.target = some response.body := by
    rw [hrows, hafter, htarget, Table.get?_insert, if_pos rfl]
  have hserved := resolve_of_row p' send' hallow hrow (by rw [htarget]; exact hcopy)
  refine ⟨response, _, hanswer, hcopy, ?_, ?_, ?_⟩
  · rw [hserved]
    rfl
  · rw [hserved]
  · intro hsizes
    rw [hsizes, hdraft]

/-- A request with white space around it that is answered from elsewhere, and a request for the id that this gives. -/
theorem stored_copy_agrees_elsewhere :
    let send : Transport (StateM Unit) := fun _ => pure (.ok ⟨200, World.plainDocument "1", " http://b\n"⟩)
    let p := Pipeline.new .usual
    let after := resolve p send ⟨" http://a ", none, none, false, true⟩ ⟨.empty, (), []⟩
    let again := resolve p send ⟨"http://b", none, none, true, false⟩ after.2
    ∃ w : Widget Float, w.id = "http://b" ∧ after.1.1.result = .ok (w, .network)
      ∧ again.1.1.result = .ok (w, .cache) ∧ again.2 = after.2 := by
  intro send p after again
  have hrun : after.1.1.result.toOption.map (fun r => (r.1.id, r.2)) = some ("http://b", .network) := by
    decide +kernel
  obtain ⟨⟨w, source⟩, hw, hpair⟩ := exists_of_map_toOption hrun
  obtain ⟨hid, rfl⟩ := Prod.mk.inj hpair
  obtain ⟨response, copy, -, -, hresult, hquiet, hcopy⟩ :=
    stored_copy_agrees send send p p _ ⟨"http://b", none, none, true, false⟩ _ after.2 w rfl hw rfl hid.symm rfl
  obtain rfl : copy = w := hcopy rfl
  exact ⟨copy, hid, hw, hresult, hquiet⟩

end Surroundings
end HomeWidget
