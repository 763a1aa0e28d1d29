import HomeWidget.Fetch.Resolve
import HomeWidget.Proofs.Table

/-!
# The two steps of a request

What the first step of a request ends with depends on one row only, and the second step writes at most one row. Both
are put into a form without a store: how a request starts over a row, what an answer makes of it, and which row its
completion writes. Any store is read and written through these; over a store that is a table and never fails, nothing
else happens.

Main results: `Pipeline.resolve_eq`, `startResolve_run`, `finishResolve_run`, `Pipeline.resolve_run_answered`,
`Pipeline.resolve_run_calling`, `startOver_cases`.
-/
namespace HomeWidget

/-! ## §1. The two steps of a request, over a row -/

/-- What can be seen to have come through has a value. -/
theorem exists_of_isOk {ε α : Type} {x : Except ε α} (h : x.isOk = true) : ∃ a, x = .ok a := by
  cases x with
  | error e => cases h
  | ok a => exact ⟨a, rfl⟩

/-- What can be seen to have failed has an error. -/
theorem exists_error_of_not_isOk {ε α : Type} {x : Except ε α} (h : x.isOk = false) : ∃ e, x = .error e := by
  cases x with
  | error e => exact ⟨e, rfl⟩
  | ok a => cases h

theorem exists_of_map_toOption {ε α β : Type} {x : Except ε α} {f : α → β} {b : β} (h : x.toOption.map f = some b) :
    ∃ a, x = .ok a ∧ f a = b := by
  cases x with
  | error e => cases h
  | ok a => exact ⟨a, rfl, Option.some.inj h⟩

/-- What the transport brings for a call. -/
abbrev Answer := Except TransportError Response

/-- The widget that a row answers a request with. -/
def storedIn? (options : FetchOptions) (row : Option Bytes) (request : Request) : Option (Widget Float) :=
  if request.allowStored then row.bind fun bytes => (options.decode bytes request.target).toOption else none

/-- How the first step ends over a row. -/
def startOver (options : FetchOptions) (row : Option Bytes) (request : Request) : Started :=
  match storedIn? options row request with
  | some widget => .answered (.ok (widget, .cache))
  | none => if isRequestable request.target then .calling request.call else .answered (.error .networkUnavailable)

/-- What an answer makes of a request. -/
def resolutionOf (options : FetchOptions) (request : Request) : Answer → Resolution
  | .error _ => .error .networkUnavailable
  | .ok response =>
    if response.status = 200 then
      match options.decode response.body (finalId request response) with
      | .error failure => .error failure
      | .ok widget => .ok (widget, .network)
    else if response.status = 401 then .error .authenticationRequired
    else .error (.httpError response.status)

/-- The id that a document is served under, in terms of the two texts that it may be. -/
theorem finalId_eq (request : Request) (response : Response) :
    finalId request response
      = if Text.trimmed response.finalUrl = "" then Text.trimmed request.id else Text.trimmed response.finalUrl := by
  unfold finalId
  simp only [String.isEmpty_iff]
  rfl

/-- A request that ended with what its call brought. -/
structure Completion where
  request : Request
  answer : Answer

namespace Completion

/-- The completion stores the document that it brought under this key: the request asked for that, and the document
came with success and can be decoded. The key is the address that the document came from in the end, or the id that was
requested if that address is blank; white space around either is no part of it. -/
def Writes (c : Completion) (key : String) : Prop :=
  ∃ response draft, c.answer = .ok response ∧ c.request.keep = true ∧ response.status = 200
    ∧ Draft.readBytes response.body = .ok draft
    ∧ (if Text.trimmed response.finalUrl = "" then Text.trimmed c.request.id else Text.trimmed response.finalUrl) = key

/-- The row that a completion writes. -/
def written? (c : Completion) : Option (String × Bytes) :=
  match c.answer with
  | .error _ => none
  | .ok response =>
    if c.request.keep ∧ response.status = 200 ∧ (Draft.readBytes response.body).isOk then
      some (finalId c.request response, response.body)
    else none

/-- The rows after a completion. -/
def rowsAfter (c : Completion) (rows : RowStore.Rows) : RowStore.Rows :=
  match c.written? with
  | some (key, body) => rows.insert key body
  | none => rows

/-- The key is the id that the document is served under. -/
theorem writes_iff {c : Completion} {key : String} :
    c.Writes key ↔ ∃ response draft, c.answer = .ok response ∧ c.request.keep = true ∧ response.status = 200
      ∧ Draft.readBytes response.body = .ok draft ∧ finalId c.request response = key := by
  unfold Writes
  simp only [finalId_eq]

/-- No document is stored under two keys. -/
theorem Writes.unique {c : Completion} {key key' : String} (h : c.Writes key) (h' : c.Writes key') : key = key' := by
  obtain ⟨response, -, hanswer, -, -, -, rfl⟩ := h
  obtain ⟨response', -, hanswer', -, -, -, rfl⟩ := h'
  obtain rfl : response = response' := Except.ok.inj (hanswer.symm.trans hanswer')
  rfl

/-- A completion that stores a document has a row to write, with the document as it came. -/
theorem written?_of_writes {c : Completion} {key : String} (h : c.Writes key) :
    ∃ response, c.answer = .ok response ∧ c.written? = some (key, response.body) := by
  obtain ⟨response, draft, hanswer, hkeep, hstatus, hread, rfl⟩ := writes_iff.1 h
  have hok : (Draft.readBytes response.body).isOk = true := by
    rw [hread]
    rfl
  refine ⟨response, hanswer, ?_⟩
  unfold written?
  rw [hanswer]
  exact if_pos ⟨hkeep, hstatus, hok⟩

/-- What a completion writes is written under the key that it should be. -/
theorem writes_of_written? {c : Completion} {key : String} {body : Bytes} (h : c.written? = some (key, body)) :
    c.Writes key := by
  unfold written? at h
  split at h
  next => cases h
  next response hanswer =>
    by_cases hall : c.request.keep = true ∧ response.status = 200 ∧ (Draft.readBytes response.body).isOk = true
    · rw [if_pos hall] at h
      obtain ⟨hkeep, hstatus, hok⟩ := hall
      obtain ⟨draft, hread⟩ := exists_of_isOk hok
      have hkey : finalId c.request response = key := (Prod.mk.inj (Option.some.inj h)).1
      exact writes_iff.2 ⟨response, draft, hanswer, hkeep, hstatus, hread, hkey⟩
    · rw [if_neg hall] at h
      cases h

/-- The row that is written holds the document as it came. -/
theorem rowsAfter_of_writes {c : Completion} {key : String} {response : Response} (h : c.Writes key)
    (hanswer : c.answer = .ok response) (rows : RowStore.Rows) : c.rowsAfter rows = rows.insert key response.body := by
  obtain ⟨response', hanswer', hwritten⟩ := written?_of_writes h
  obtain rfl : response = response' := Except.ok.inj (hanswer.symm.trans hanswer')
  unfold rowsAfter
  rw [hwritten]

end Completion

/-- A stored row answers a request: the request may be answered so, and the row can be decoded. -/
def AnsweredBy (request : Request) (row : Option Bytes) : Prop :=
  request.allowStored = true ∧ ∃ bytes draft, row = some bytes ∧ Draft.readBytes bytes = .ok draft

/-- A row answers a request just when the lookup finds a widget in it. -/
theorem answeredBy_iff (options : FetchOptions) (request : Request) (row : Option Bytes) :
    AnsweredBy request row ↔ ∃ widget, storedIn? options row request = some widget := by
  unfold AnsweredBy storedIn? FetchOptions.decode
  by_cases hs : request.allowStored = true
  · rw [if_pos hs]
    constructor
    · rintro ⟨-, bytes, draft, rfl, hread⟩
      refine ⟨⟨request.target, draft.restrict options.supportsExtraLarge⟩, ?_⟩
      rw [Option.bind_some, hread]
      rfl
    · rintro ⟨widget, hw⟩
      obtain ⟨bytes, hrow, hw⟩ := Option.bind_eq_some_iff.1 hw
      refine ⟨hs, bytes, ?_⟩
      cases hread : Draft.readBytes bytes with
      | error e =>
        rw [hread] at hw
        cases hw
      | ok draft => exact ⟨draft, hrow, rfl⟩
  · rw [if_neg hs]
    constructor
    · rintro ⟨h, -⟩
      exact absurd h hs
    · rintro ⟨widget, hw⟩
      cases hw

/-- A request that may not be answered from a store is not. -/
theorem storedIn?_of_not_allowed (options : FetchOptions) (row : Option Bytes) {request : Request}
    (h : request.allowStored = false) : storedIn? options row request = none := by
  unfold storedIn?
  rw [h]
  rfl

/-- A request that may not be answered from a store makes its call if its id looks like an address, whatever is stored. -/
theorem startOver_of_not_allowed (options : FetchOptions) (row : Option Bytes) {request : Request}
    (h : request.allowStored = false) :
    startOver options row request
      = if isRequestable request.target then .calling request.call else .answered (.error .networkUnavailable) := by
  unfold startOver
  rw [storedIn?_of_not_allowed options row h]

/-- The first step ends with a call just when no stored row answers the request and its id looks like an address. -/
theorem startOver_cases (options : FetchOptions) (row : Option Bytes) (request : Request) :
    (startOver options row request = .calling request.call
        ∧ ¬AnsweredBy request row ∧ isRequestable request.target = true)
      ∨ (∃ result, startOver options row request = .answered result)
        ∧ (AnsweredBy request row ∨ isRequestable request.target = false) := by
  rw [answeredBy_iff options]
  unfold startOver
  cases storedIn? options row request with
  | some widget => exact Or.inr ⟨⟨_, rfl⟩, Or.inl ⟨widget, rfl⟩⟩
  | none =>
    cases hr : isRequestable request.target with
    | true =>
      refine Or.inl ⟨rfl, ?_, rfl⟩
      rintro ⟨widget, hw⟩
      cases hw
    | false => exact Or.inr ⟨⟨_, rfl⟩, Or.inr rfl⟩

/-- The options say how a body is decoded, not whether it can be. -/
theorem decode_isOk (options : FetchOptions) (bytes : Bytes) (id : String) :
    (options.decode bytes id).isOk = (Draft.readBytes bytes).isOk := by
  unfold FetchOptions.decode
  cases Draft.readBytes bytes <;> rfl

/-! ## §2. Any store -/

section

variable {σ : Type}

/-- The row that a store finds under an id; a store that fails counts as one without the row. -/
def RowStore.rowAt (store : RowStore (StateM σ)) (id : String) (s : σ) : Option Bytes :=
  match ((store.get id).run s).1 with
  | .ok row => row
  | .error _ => none

/-- What the first step of a request leaves of a store: it is read once, if it may answer. -/
def RowStore.afterReading (store : RowStore (StateM σ)) (request : Request) (s : σ) : σ :=
  if request.allowStored then ((store.get request.target).run s).2 else s

/-- What the second step leaves of a store: it is written to once, if the completion has something to store. -/
def RowStore.afterWriting (store : RowStore (StateM σ)) (c : Completion) (s : σ) : σ :=
  match c.written? with
  | some (key, body) => ((store.put key body).run s).2
  | none => s

/-- The lookup of a stored widget reads one row, and changes the store by that reading only. -/
theorem stored?_eq (store : RowStore (StateM σ)) (options : FetchOptions) (id : String) (s : σ) :
    (stored? store options id).run s
      = ((store.rowAt id s).bind fun bytes => (options.decode bytes id).toOption, ((store.get id).run s).2) := by
  obtain ⟨answer, s', hget⟩ : ∃ answer s', (store.get id).run s = (answer, s') := ⟨_, _, rfl⟩
  unfold stored? RowStore.rowAt
  rw [StateT.run_bind, hget]
  rcases answer with e | ⟨_ | bytes⟩ <;> rfl

/-- **The first step reads one row**, whatever the store does. -/
theorem startResolve_eq (store : RowStore (StateM σ)) (options : FetchOptions) (request : Request) (s : σ) :
    (startResolve store options request).run s
      = (startOver options (store.rowAt request.target s) request, store.afterReading request s) := by
  unfold startResolve startOver storedIn? RowStore.afterReading
  -- the store is read only when a stored row may answer
  by_cases hs : request.allowStored = true
  · simp only [if_pos hs]
    rw [StateT.run_bind, stored?_eq]
    cases (store.rowAt request.target s).bind fun bytes => (options.decode bytes request.target).toOption with
    | some widget => rfl
    | none => by_cases hr : isRequestable request.target = true <;> (simp only [hr]; rfl)
  · simp only [if_neg hs]
    rw [StateT.run_bind]
    by_cases hr : isRequestable request.target = true <;> (simp only [hr]; rfl)

/-- **The second step writes one row at most**, and ends in the same way whatever the store says to that. -/
theorem finishResolve_eq (store : RowStore (StateM σ)) (options : FetchOptions) (request : Request) (answer : Answer)
    (s : σ) :
    (finishResolve store options request answer).run s
      = (resolutionOf options request answer, store.afterWriting ⟨request, answer⟩ s) := by
  cases answer with
  | error e => rfl
  | ok response =>
    have hok := decode_isOk options response.body (finalId request response)
    unfold finishResolve resolutionOf RowStore.afterWriting Completion.written?
    -- a row is written in one of the cases only: success, a document that decodes, and a request to keep it
    by_cases hstatus : response.status = 200
    · simp only [if_pos hstatus]
      cases hdecode : options.decode response.body (finalId request response) with
      | error failure =>
        have hfails : (Draft.readBytes response.body).isOk = false := by rw [← hok, hdecode]; rfl
        simp only [StateT.run_pure, hfails, Bool.false_eq_true, and_false, ↓reduceIte]
        rfl
      | ok widget =>
        have hreads : (Draft.readBytes response.body).isOk = true := by rw [← hok, hdecode]; rfl
        by_cases hkeep : request.keep = true
        · simp only [if_pos hkeep]
          rw [StateT.run_bind]
          simp only [hkeep, hstatus, hreads, and_self, ↓reduceIte]
          rfl
        · simp only [hkeep, Bool.false_eq_true, ↓reduceIte, StateT.run_pure, false_and]
          rfl
    · by_cases hcredentials : response.status = 401
      · simp only [hcredentials, Nat.reduceEqDiff, ↓reduceIte, StateT.run_pure, false_and, and_false]
        rfl
      · simp only [hstatus, ↓reduceIte, hcredentials, StateT.run_pure, false_and, and_false]
        rfl

/-- A completion that stores a document made a widget of its request. -/
theorem resolutionOf_of_writes (options : FetchOptions) {request : Request} {answer : Answer} {key : String}
    (h : (Completion.mk request answer).Writes key) : ∃ w, resolutionOf options request answer = .ok (w, .network) := by
  obtain ⟨response, draft, rfl, -, hstatus, hread, rfl⟩ := Completion.writes_iff.1 h
  refine ⟨⟨finalId request response, draft.restrict options.supportsExtraLarge⟩, ?_⟩
  unfold resolutionOf FetchOptions.decode
  dsimp only
  rw [if_pos hstatus, hread]

/-- A request that its answer makes fail writes nothing. -/
theorem RowStore.afterWriting_of_failure (store : RowStore (StateM σ)) {options : FetchOptions} {request : Request}
    {answer : Answer} {failure : Failure} (h : resolutionOf options request answer = .error failure) (s : σ) :
    store.afterWriting ⟨request, answer⟩ s = s := by
  unfold RowStore.afterWriting
  split
  next key body hwritten =>
    obtain ⟨w, hw⟩ := resolutionOf_of_writes options (Completion.writes_of_written? hwritten)
    rw [hw] at h
    cases h
  next => rfl

/-- **A request from its start to its end**, over any store: it is answered at once, or by its call. -/
theorem Pipeline.resolve_eq (transport : Transport (StateM σ)) (store : RowStore (StateM σ)) (p : Pipeline)
    (request : Request) (s : σ) :
    (p.resolve transport store request).run s
      = match startOver p.options (store.rowAt request.target s) request with
        | .answered result =>
          ((p.outcome (p.issue request).1 request result, (p.issue request).2), store.afterReading request s)
        | .calling call =>
          let brought := (transport call).run (store.afterReading request s)
          ((p.outcome (p.issue request).1 request (resolutionOf p.options request brought.1), (p.issue request).2),
            store.afterWriting ⟨request, brought.1⟩ brought.2) := by
  have hrun := startResolve_eq store p.options request s
  unfold Pipeline.resolve
  simp only [Pipeline.issue]
  rw [StateT.run_bind, hrun]
  cases startOver p.options (store.rowAt request.target s) request with
  | answered result => rfl
  | calling call =>
    show (transport call >>= fun answer => finishResolve store p.options request answer >>= _).run _ = _
    rw [StateT.run_bind]
    dsimp only
    generalize (transport call).run (store.afterReading request s) = brought
    show (finishResolve store p.options request brought.1 >>= _).run brought.2 = _
    rw [StateT.run_bind, finishResolve_eq]
    rfl

/-- A host is told the id that it asked for without the white space around it, however the request ends. -/
theorem Pipeline.requestedId_resolve (transport : Transport (StateM σ)) (store : RowStore (StateM σ)) (p : Pipeline)
    (request : Request) (s : σ) : ((p.resolve transport store request).run s).1.1.requestedId = request.target := by
  rw [Pipeline.resolve_eq]
  cases startOver p.options (store.rowAt request.target s) request with
  | answered result => rfl
  | calling call => rfl

end

/-! ## §3. Stores that work -/

/-- A store that is a table within a state and never fails. What else is in the state does not matter to it. -/
structure RowStore.Works {σ : Type} (store : RowStore (StateM σ)) (rows : σ → Rows) (update : Rows → σ → σ) :
    Prop where
  get_run : ∀ id s, (store.get id).run s = (.ok ((rows s).get? id), s)
  put_run : ∀ id body s, (store.put id body).run s = (.ok (), update ((rows s).insert id body) s)
  delete_run : ∀ id s, (store.delete id).run s = (.ok (), update ((rows s).erase id) s)
  update_rows : ∀ s, update (rows s) s = s
  rows_update : ∀ table s, rows (update table s) = table

theorem RowStore.works_memory : RowStore.memory.Works id fun rows _ => rows :=
  ⟨fun _ _ => rfl, fun _ _ _ => rfl, fun _ _ => rfl, fun _ => rfl, fun _ _ => rfl⟩

section

variable {σ : Type} {store : RowStore (StateM σ)} {rows : σ → RowStore.Rows} {update : RowStore.Rows → σ → σ}

namespace RowStore.Works

/-- What a working store says of an id is its row. -/
theorem rowAt_eq (h : store.Works rows update) (id : String) (s : σ) : store.rowAt id s = (rows s).get? id := by
  unfold RowStore.rowAt
  rw [h.get_run]

/-- A working store is not changed by being read. -/
theorem afterReading_eq (h : store.Works rows update) (request : Request) (s : σ) :
    store.afterReading request s = s := by
  unfold RowStore.afterReading
  rw [h.get_run, ite_self]

/-- A row is written in the table, and nothing else is changed. -/
theorem afterWriting_eq (h : store.Works rows update) (c : Completion) (s : σ) :
    store.afterWriting c s = update (c.rowsAfter (rows s)) s := by
  unfold RowStore.afterWriting Completion.rowsAfter
  cases c.written? with
  | some row =>
    dsimp only
    rw [h.put_run]
  | none => exact (h.update_rows s).symm

end RowStore.Works

/-- The first step reads one row, and changes nothing. -/
theorem startResolve_run (h : store.Works rows update) (options : FetchOptions) (request : Request) (s : σ) :
    (startResolve store options request).run s
      = (startOver options ((rows s).get? request.target) request, s) := by
  rw [startResolve_eq, h.rowAt_eq, h.afterReading_eq]

/-- The second step changes the rows as its completion does, and nothing else. -/
theorem finishResolve_run (h : store.Works rows update) (options : FetchOptions) (request : Request) (answer : Answer)
    (s : σ) :
    (finishResolve store options request answer).run s
      = (resolutionOf options request answer, update ((Completion.mk request answer).rowsAfter (rows s)) s) := by
  rw [finishResolve_eq, h.afterWriting_eq]

/-- A request that a row answers, or that cannot be made, ends without a call and changes nothing. -/
theorem Pipeline.resolve_run_answered (h : store.Works rows update) (transport : Transport (StateM σ)) {p : Pipeline}
    {request : Request} {s : σ} {result : Resolution}
    (hstart : startOver p.options ((rows s).get? request.target) request = .answered result) :
    (p.resolve transport store request).run s
      = ((p.outcome (p.issue request).1 request result, (p.issue request).2), s) := by
  rw [Pipeline.resolve_eq, h.rowAt_eq, hstart, h.afterReading_eq]

/-- Any other request makes its call, and ends as the answer makes it. -/
theorem Pipeline.resolve_run_calling (h : store.Works rows update) {transport : Transport (StateM σ)} {p : Pipeline}
    {request : Request} {s s' : σ} {call : Call} {answer : Answer}
    (hstart : startOver p.options ((rows s).get? request.target) request = .calling call)
    (hcall : (transport call).run s = (answer, s')) :
    (p.resolve transport store request).run s
      = ((p.outcome (p.issue request).1 request (resolutionOf p.options request answer), (p.issue request).2),
          update ((Completion.mk request answer).rowsAfter (rows s')) s') := by
  rw [Pipeline.resolve_eq, h.rowAt_eq, hstart, h.afterReading_eq]
  dsimp only
  rw [hcall, h.afterWriting_eq]

end

/-! ## §4. Over the table alone -/

/-- Over a store in memory the start of a request depends on one row and changes none. -/
theorem startResolve_memory (options : FetchOptions) (request : Request) (rows : RowStore.Rows) :
    (startResolve RowStore.memory options request).run rows
      = (startOver options (rows.get? request.target) request, rows) :=
  startResolve_run RowStore.works_memory options request rows

/-- Over a store in memory the end of a request stores what the completion writes. -/
theorem finishResolve_memory (options : FetchOptions) (request : Request) (answer : Answer)
    (rows : RowStore.Rows) :
    (finishResolve RowStore.memory options request answer).run rows
      = (resolutionOf options request answer, (Completion.mk request answer).rowsAfter rows) :=
  finishResolve_run RowStore.works_memory options request answer rows

end HomeWidget
