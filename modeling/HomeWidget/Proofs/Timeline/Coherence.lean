import HomeWidget.Proofs.Fetch.Advice
import HomeWidget.Timeline.Entry

/-!
# Entries are coherent

The entry of a subscription is told by the subscription and by the answer to one call: the request is never answered
from the store, so that no store has a part in the entry. Every failure has words for the user, as long as the host has
chosen some for those without words of their own; an entry therefore has either a widget or an error text. What it shows
is the layout of the widget, or the unknown layout where there is no widget.

Main results: `errorText_outcome_eq_empty_iff`, `entry_eq`, `entry_coherent`.
-/
namespace HomeWidget

/-! ## §1. Words for the user -/

/-- Every failure has words for the user, if those without words of their own are given some. -/
theorem Failure.userMessage_ne_empty {generic : String} (h : generic ≠ "") (failure : Failure) :
    failure.userMessage generic ≠ "" := by
  cases failure with
  | malformedDefinition field parent =>
    unfold Failure.userMessage
    simp
  | networkUnavailable => exact h
  | authenticationRequired => exact h
  | httpError status => exact h
  | undecodable message => exact h

/-- **A host is told nothing just when a widget arrived.** -/
theorem errorText_outcome_eq_empty_iff {p : Pipeline} (h : p.options.genericMessage ≠ "") (token : Token)
    (request : Request) (result : Resolution) :
    (p.outcome token request result).errorText = "" ↔ ∃ w source, result = .ok (w, source) := by
  cases result with
  | ok arrived => exact ⟨fun _ => ⟨arrived.1, arrived.2, rfl⟩, fun _ => rfl⟩
  | error failure =>
    constructor
    · intro hempty
      exact absurd hempty (failure.userMessage_ne_empty h)
    · rintro ⟨w, source, hresult⟩
      cases hresult

@[simp]
theorem Pipeline.result_outcome (p : Pipeline) (token : Token) (request : Request) (result : Resolution) :
    (p.outcome token request result).result = result := rfl

theorem widget?_eq_some_iff {o : Outcome} {w : Widget Float} :
    o.widget? = some w ↔ ∃ source, o.result = .ok (w, source) := by
  unfold Outcome.widget?
  cases o.result with
  | ok arrived =>
    obtain ⟨widget, source⟩ := arrived
    constructor
    · intro h
      exact ⟨source, by rw [Option.some.inj h]⟩
    · rintro ⟨source', h⟩
      rw [(Prod.mk.inj (Except.ok.inj h)).1]
  | error failure =>
    constructor
    · intro h
      cases h
    · rintro ⟨source, h⟩
      cases h

/-! ## §2. Fresh requests -/

/-- What becomes of a request that may not be answered from the store, if this is the answer to its call. -/
def freshResult (options : FetchOptions) (request : Request) (answer : Answer) : Resolution :=
  if isRequestable request.target then resolutionOf options request answer else .error .networkUnavailable

/-- The answer has a document that can be decoded, and this is the widget that it makes of the request. -/
def Serves (options : FetchOptions) (request : Request) (answer : Answer) (w : Widget Float) : Prop :=
  ∃ response draft, answer = .ok response ∧ response.status = 200 ∧ Draft.readBytes response.body = .ok draft
    ∧ w = ⟨finalId request response, draft.restrict options.supportsExtraLarge⟩

/-- **A fresh request ends with a widget just when it is requestable and its answer serves that widget.** -/
theorem freshResult_eq_ok_iff {options : FetchOptions} {request : Request} {answer : Answer} {w : Widget Float} :
    (∃ source, freshResult options request answer = .ok (w, source))
      ↔ isRequestable request.target = true ∧ Serves options request answer w := by
  unfold freshResult
  by_cases hrequestable : isRequestable request.target = true
  · rw [if_pos hrequestable]
    constructor
    · rintro ⟨source, hresult⟩
      obtain ⟨response, hanswer, hstatus, hdecode, -⟩ := resolutionOf_eq_ok hresult
      obtain ⟨draft, hread, hw⟩ := decode_eq_ok_iff.1 hdecode
      exact ⟨hrequestable, response, draft, hanswer, hstatus, hread, hw.symm⟩
    · rintro ⟨-, response, draft, rfl, hstatus, hread, rfl⟩
      refine ⟨.network, ?_⟩
      have hdecode : options.decode response.body (finalId request response)
          = .ok ⟨finalId request response, draft.restrict options.supportsExtraLarge⟩ :=
        decode_eq_ok_iff.2 ⟨draft, hread, rfl⟩
      unfold resolutionOf
      dsimp only
      rw [if_pos hstatus, hdecode]
  · rw [if_neg hrequestable]
    constructor
    · rintro ⟨source, hresult⟩
      cases hresult
    · rintro ⟨h, -⟩
      exact absurd h hrequestable

/-! ## §3. Entries -/

/-- Making an entry makes the request of its subscription, and nothing else. -/
theorem buildEntry_run {σ : Type} (transport : Transport (StateM σ)) (store : RowStore (StateM σ)) (p : Pipeline)
    (s : Subscription) (date : Timestamp) (a : σ) :
    (buildEntry transport store p (some s) date).run a
      = ((.ofOutcome date s ((p.resolve transport store s.request).run a).1.1,
            ((p.resolve transport store s.request).run a).1.2),
          ((p.resolve transport store s.request).run a).2) := by
  unfold buildEntry
  show (p.resolve transport store s.request >>= _).run a = _
  rw [StateT.run_bind]
  generalize (p.resolve transport store s.request).run a = ended
  rfl

namespace Setting

variable {σ τ : Type}

/-- The entry of a subscription, made in a setting. -/
def entry (store : RowStore (StateM σ)) (p : Pipeline) (send : Transport (StateM τ)) (s : Subscription)
    (date : Timestamp) (a : Setting σ τ) : (Entry × Pipeline) × Setting σ τ :=
  (buildEntry (transport send) (Setting.store store) p (some s) date).run a

section

variable (store : RowStore (StateM σ)) (p : Pipeline) (send : Transport (StateM τ)) (s : Subscription)
  (date : Timestamp) (a : Setting σ τ)

/-- An entry is what is made of one request. -/
theorem entry_run :
    entry store p send s date a
      = ((.ofOutcome date s (resolve store p send s.request a).1.1, (resolve store p send s.request a).1.2),
          (resolve store p send s.request a).2) := by
  unfold entry resolve
  exact buildEntry_run (transport send) (Setting.store store) p s date a

/-- A fresh request ends with what its answer makes of it, after its one call. -/
theorem resolve_fresh {request : Request} (h : request.allowStored = false) :
    (resolve store p send request a).1.1
        = p.outcome (p.issue request).1 request (freshResult p.options request ((send request.call).run a.line).1)
      ∧ (resolve store p send request a).2.calls
        = if isRequestable request.target then request.call :: a.calls else a.calls := by
  have hseen := seen_resolve store p send request a
  rw [startOver_of_not_allowed _ _ h] at hseen
  generalize resolve store p send request a = ended at hseen ⊢
  unfold seen at hseen
  unfold freshResult
  by_cases hrequestable : isRequestable request.target = true
  · rw [if_pos hrequestable] at hseen ⊢
    rw [if_pos hrequestable]
    exact ⟨congrArg (·.1.1) hseen, congrArg (·.2.2) hseen⟩
  · rw [if_neg hrequestable] at hseen ⊢
    rw [if_neg hrequestable]
    exact ⟨congrArg (·.1.1) hseen, congrArg (·.2.2) hseen⟩

/-- **An entry is made of its subscription and of one answer.** -/
theorem entry_eq :
    (entry store p send s date a).1.1
        = .ofOutcome date s (p.outcome (p.issue s.request).1 s.request
            (freshResult p.options s.request ((send s.request.call).run a.line).1))
      ∧ (entry store p send s date a).2.calls
        = if isRequestable s.request.target then s.request.call :: a.calls else a.calls := by
  have hfresh : s.request.allowStored = false := rfl
  obtain ⟨houtcome, hcalls⟩ := resolve_fresh store p send a hfresh
  rw [entry_run]
  dsimp only
  rw [houtcome, hcalls]
  exact ⟨rfl, rfl⟩

end

/-- **Entries are coherent.** The entry of a subscription is made of the subscription and of the answer to its one
call:

* it has the date that it was made for, and the id, the layout and the credentials of the subscription;
* it is the same over every store, whatever the store holds and however it fails;
* the call is made just when the id, without white space around it, looks like an address;
* it has a widget just when it has no error text, and that is just when the call was made and answered with success
  and a document that can be decoded;
* if a layout is chosen, it shows that layout of the widget, which is the document of the answer without the sizes that
  are not supported; or the unknown layout, if it has no widget.
-/
theorem entry_coherent (p : Pipeline) (send : Transport (StateM τ)) (s : Subscription) (date : Timestamp)
    (store : RowStore (StateM σ)) (a : Setting σ τ) (hgeneric : p.options.genericMessage ≠ "") :
    let answer := ((send s.request.call).run a.line).1
    let made := (entry store p send s date a).1.1
    (made.date = date ∧ made.url = s.id ∧ made.layoutName = s.layoutName ∧ made.user = s.user.getD ""
        ∧ made.password = s.password.getD "")
      ∧ (∀ (σ' : Type) (store' : RowStore (StateM σ')) (kept' : σ'),
        (entry store' p send s date ⟨kept', a.line, a.calls⟩).1.1 = made)
      ∧ (entry store p send s date a).2.calls
        = (if isRequestable (Text.trimmed s.id) then s.request.call :: a.calls else a.calls)
      ∧ (made.widget.isSome = true ↔ made.errorText = "")
      ∧ (made.errorText = "" ↔ isRequestable (Text.trimmed s.id) = true
          ∧ ∃ response draft, answer = .ok response ∧ response.status = 200
            ∧ Draft.readBytes response.body = .ok draft)
      ∧ (s.layoutName ≠ "" → ∀ size target,
        (∀ w, made.widget = some w →
          (∃ response draft, answer = .ok response ∧ Draft.readBytes response.body = .ok draft
              ∧ w = ⟨finalId s.request response, draft.restrict p.options.supportsExtraLarge⟩)
            ∧ made.primitives size target = Surface.render Reading.float w s.layoutName target ⟨false, .light⟩)
          ∧ (made.widget = none → made.primitives size target = Surface.unknownLayout target .light)) := by
  intro answer made
  obtain ⟨hmade, hcalls⟩ := entry_eq store p send s date a
  have hstores : ∀ (σ' : Type) (store' : RowStore (StateM σ')) (kept' : σ'),
      (entry store' p send s date ⟨kept', a.line, a.calls⟩).1.1 = made := fun σ' store' kept' =>
    (entry_eq store' p send s date ⟨kept', a.line, a.calls⟩).1.trans hmade.symm
  -- what is said of the widget and of the error text is said of the one outcome
  generalize houtcome : p.outcome _ s.request (freshResult p.options s.request answer) = o at hmade
  change made = .ofOutcome date s o at hmade
  clear_value made
  subst hmade
  have hresult : o.result = freshResult p.options s.request answer := by rw [← houtcome, Pipeline.result_outcome]
  have hwidget : ∀ w, o.widget? = some w
      ↔ isRequestable s.request.target = true ∧ Serves p.options s.request answer w := by
    intro w
    rw [← freshResult_eq_ok_iff, widget?_eq_some_iff, hresult]
  have hwords : o.errorText = "" ↔ ∃ w, o.widget? = some w := by
    simp only [widget?_eq_some_iff, hresult]
    rw [← houtcome]
    exact errorText_outcome_eq_empty_iff hgeneric _ _ _
  refine ⟨⟨rfl, rfl, rfl, rfl, rfl⟩, hstores, hcalls, ?_, ?_, ?_⟩
  · exact Option.isSome_iff_exists.trans hwords.symm
  · refine hwords.trans ⟨?_, ?_⟩
    · rintro ⟨w, hw⟩
      obtain ⟨hrequestable, response, draft, hanswer, hstatus, hread, -⟩ := (hwidget w).1 hw
      exact ⟨hrequestable, response, draft, hanswer, hstatus, hread⟩
    · rintro ⟨hrequestable, response, draft, hanswer, hstatus, hread⟩
      exact ⟨_, (hwidget _).2 ⟨hrequestable, response, draft, hanswer, hstatus, hread, rfl⟩⟩
  · intro hlayout size target
    have hchosen : ¬s.layoutName.isEmpty = true := by simpa using hlayout
    constructor
    · intro w hw
      obtain ⟨-, response, draft, hanswer, -, hread, hdraft⟩ := (hwidget w).1 hw
      refine ⟨⟨response, draft, hanswer, hread, hdraft⟩, ?_⟩
      unfold Entry.primitives
      rw [hw]
      exact if_neg hchosen
    · intro hnone
      unfold Entry.primitives
      rw [hnone]
      exact if_neg hchosen

/-- An entry whose document arrived, over a store of which everything fails, and over one with a row that cannot be
decoded. -/
theorem entry_coherent_served :
    let p := Pipeline.new .usual
    let send : Transport (StateM Unit) := fun _ => pure (.ok ⟨200, World.plainDocument "n", ""⟩)
    let s : Subscription := ⟨" http://a", some "u", none, "main", .small⟩
    let broken := RowStore.memory.failing (fun _ => true) "disk on fire"
    let rows : RowStore.Rows := .ofList [("http://a", Utf8.ofString "\x7b")]
    let made := (entry broken p send s ⟨0, 0, 0⟩ ⟨.empty, (), []⟩).1.1
    made.url = " http://a" ∧ made.user = "u" ∧ made.password = "" ∧ made.errorText = "" ∧ made.widget.isSome = true
      ∧ (entry .memory p send s ⟨0, 0, 0⟩ ⟨rows, (), []⟩).1.1 = made := by
  intro p send s broken rows made
  obtain ⟨⟨-, hurl, -, huser, hpassword⟩, hstores, -, hwidget, hwords, -⟩ :=
    entry_coherent p send s ⟨0, 0, 0⟩ broken ⟨.empty, (), []⟩ (by decide)
  obtain ⟨draft, hread⟩ : ∃ draft, Draft.readBytes (World.plainDocument "n") = .ok draft :=
    exists_of_isOk (by decide +kernel)
  have hserved : made.errorText = "" :=
    hwords.2 ⟨by decide +kernel, ⟨200, World.plainDocument "n", ""⟩, draft, rfl, rfl, hread⟩
  have hsame := hstores _ .memory rows
  dsimp only at hsame
  refine ⟨hurl, huser, hpassword, hserved, hwidget.2 hserved, ?_⟩
  exact hsame

end Setting
end HomeWidget
