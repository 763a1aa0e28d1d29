import HomeWidget.Proofs.Fetch.Steps

/-!
# Requests that overlap

Pipelines that share one store in memory, as a machine. An event starts a request, brings the answer to the call of
one, or makes a pipeline forget an id; each is done as a whole, and they come in any order. A run is a fold of the
step over its events, and every fact about runs comes from one about a step.

Main results: `requests_run`, `get?_rows_run`, `interleaving`.
-/
namespace HomeWidget

/-! ## §1. The machine -/

/-- How far a request has come: it waits for the answer to its call, or it has ended. -/
inductive Stage where
  | waiting
  | ended (outcome : Outcome)

/-- A request that was started, by one of the pipelines. -/
structure Underway where
  owner : Nat
  token : Token
  request : Request
  stage : Stage

/-- What happens: a start, the arrival of what was called for the request at a place, or a pipeline forgetting. -/
inductive Event where
  | start (owner : Nat) (request : Request)
  | arrival (place : Nat) (answer : Answer)
  | forget (owner : Nat) (id : String)

/-- Pipelines over one store, their requests in the order of the starts, and the calls that went out, each with the
place of its request. -/
structure World where
  pipelines : Nat → Pipeline
  rows : RowStore.Rows
  requests : List Underway
  sent : List (Nat × Call)

/-- The answer that an event brings to a place. -/
def Event.answerFor? (place : Nat) : Event → Option Answer
  | .arrival i answer => if i = place then some answer else none
  | _ => none

namespace Underway

/-- How far a request of a pipeline has come after an answer, if there is one; only a request that waits takes it. -/
def settledStage (p : Pipeline) (answer? : Option Answer) (u : Underway) : Stage :=
  match u.stage, answer? with
  | .waiting, some answer => .ended (p.outcome u.token u.request (resolutionOf p.options u.request answer))
  | stage, _ => stage

/-- A request of a pipeline after an answer, if there is one. -/
def settle (p : Pipeline) (answer? : Option Answer) (u : Underway) : Underway :=
  { u with stage := u.settledStage p answer? }

theorem settledStage_none (p : Pipeline) (u : Underway) : u.settledStage p none = u.stage := by
  unfold settledStage
  split
  next h => cases h
  next => rfl

/-- A request that has ended keeps its outcome, whatever arrives later. -/
theorem settledStage_ended {u : Underway} {o : Outcome} (h : u.stage = .ended o) (p : Pipeline)
    (answer? : Option Answer) : u.settledStage p answer? = .ended o := by
  unfold settledStage
  rw [h]

/-- Without an answer a request stays as it is. -/
theorem settle_none (p : Pipeline) (u : Underway) : u.settle p none = u := by
  unfold settle
  rw [settledStage_none]

/-- A request that has ended takes no further answer. -/
theorem settle_ended {u : Underway} {o : Outcome} (h : u.stage = .ended o) (p : Pipeline) (answer? : Option Answer) :
    u.settle p answer? = u := by
  unfold settle
  rw [settledStage_ended h, ← h]

/-- The first of two answers is the one that counts. -/
theorem settle_settle {p p' : Pipeline} (h : p'.options = p.options) (first second : Option Answer) (u : Underway) :
    (u.settle p first).settle p' second = u.settle p (first.or second) := by
  obtain ⟨owner, token, request, stage⟩ := u
  cases stage with
  | ended o => rfl
  | waiting =>
    cases first with
    | none =>
      -- an outcome depends on the options of the pipeline only, which both have
      rw [settle_none, Option.none_or]
      cases second with
      | none => rfl
      | some answer =>
        unfold settle settledStage Pipeline.outcome
        rw [h]
    | some answer => rfl

end Underway

/-- The pipelines with one of them replaced. -/
def replacePipeline (pipelines : Nat → Pipeline) (owner : Nat) (p : Pipeline) : Nat → Pipeline :=
  fun q => if q = owner then p else pipelines q

@[simp]
theorem replacePipeline_self (pipelines : Nat → Pipeline) (owner : Nat) (p : Pipeline) :
    replacePipeline pipelines owner p owner = p := if_pos rfl

/-- What is done to one pipeline leaves the others alone. -/
theorem replacePipeline_of_ne (pipelines : Nat → Pipeline) {owner q : Nat} (h : q ≠ owner) (p : Pipeline) :
    replacePipeline pipelines owner p q = pipelines q := if_neg h

namespace World

/-- No request has been made of these pipelines yet. -/
def fresh (pipelines : Nat → Pipeline) (rows : RowStore.Rows) : World := ⟨pipelines, rows, [], []⟩

/-- A request starts. -/
def start (w : World) (owner : Nat) (request : Request) : World :=
  let (token, p) := (w.pipelines owner).issue request
  let (started, rows) := (startResolve RowStore.memory p.options request).run w.rows
  let pipelines := replacePipeline w.pipelines owner p
  match started with
  | .answered result =>
    { w with pipelines, rows,
             requests := w.requests ++ [⟨owner, token, request, .ended (p.outcome token request result)⟩] }
  | .calling call =>
    { pipelines, rows, requests := w.requests ++ [⟨owner, token, request, .waiting⟩],
      sent := w.sent ++ [(w.requests.length, call)] }

/-- What was called for a request arrives; nothing happens if the request does not wait. -/
def arrive (w : World) (place : Nat) (answer : Answer) : World :=
  match w.requests[place]? with
  | some ⟨owner, token, request, .waiting⟩ =>
    let p := w.pipelines owner
    let (result, rows) := (finishResolve RowStore.memory p.options request answer).run w.rows
    { w with rows,
             requests := w.requests.set place ⟨owner, token, request, .ended (p.outcome token request result)⟩ }
  | _ => w

/-- One event. -/
def step (w : World) : Event → World
  | .start owner request => w.start owner request
  | .arrival place answer => w.arrive place answer
  | .forget owner id => { w with pipelines := replacePipeline w.pipelines owner ((w.pipelines owner).forget id) }

/-- One event after the other. -/
def run (w : World) (events : List Event) : World := events.foldl step w

@[simp]
theorem run_nil (w : World) : w.run [] = w := rfl

@[simp]
theorem run_cons (w : World) (e : Event) (events : List Event) : w.run (e :: events) = (w.step e).run events := rfl

/-- A run in two parts: the second goes on where the first has stopped. -/
theorem run_append (w : World) (before after : List Event) : w.run (before ++ after) = (w.run before).run after :=
  List.foldl_append

/-! ## §2. What a step does -/

/-- The request that starts, as it is after its first step. -/
def launched (w : World) (owner : Nat) (request : Request) : Underway where
  owner
  token := ((w.pipelines owner).issue request).1
  request
  stage :=
    match startOver (w.pipelines owner).options (w.rows.get? request.target) request with
    | .answered result => .ended ((w.pipelines owner).outcome ((w.pipelines owner).issue request).1 request result)
    | .calling _ => .waiting

/-- The call of a request that starts, if it makes one. -/
def launchedCall? (w : World) (owner : Nat) (request : Request) : Option Call :=
  match startOver (w.pipelines owner).options (w.rows.get? request.target) request with
  | .answered _ => none
  | .calling call => some call

/-- What a start changes, all of it: the pipeline, the requests and what was sent. -/
theorem start_eq (w : World) (owner : Nat) (request : Request) :
    w.start owner request
      = { pipelines := replacePipeline w.pipelines owner ((w.pipelines owner).issue request).2
          rows := w.rows
          requests := w.requests ++ [w.launched owner request]
          sent := w.sent ++ ((w.launchedCall? owner request).map fun call => (w.requests.length, call)).toList } := by
  have hstart := startResolve_memory (w.pipelines owner).options request w.rows
  unfold start launched launchedCall?
  simp only [Pipeline.issue]
  rw [hstart]
  cases startOver (w.pipelines owner).options (w.rows.get? request.target) request with
  | answered result => simp [Pipeline.outcome]
  | calling call => simp

/-- The answer of a waiting request ends it and stores what there is to store. -/
theorem arrive_waiting {w : World} {place : Nat} {u : Underway} (hu : w.requests[place]? = some u)
    (hwaiting : u.stage = .waiting) (answer : Answer) :
    w.arrive place answer
      = { w with rows := (Completion.mk u.request answer).rowsAfter w.rows
                 requests := w.requests.set place (u.settle (w.pipelines u.owner) (some answer)) } := by
  obtain ⟨owner, token, request, stage⟩ := u
  subst hwaiting
  unfold arrive Underway.settle
  rw [hu]
  simp only [finishResolve_memory]
  rfl

/-- An answer that no request waits for changes nothing. -/
theorem arrive_idle {w : World} {place : Nat} (h : ∀ u, w.requests[place]? = some u → u.stage ≠ .waiting)
    (answer : Answer) : w.arrive place answer = w := by
  unfold arrive
  split
  next owner token request hu => exact absurd rfl (h _ hu)
  next => rfl

/-- The options of a pipeline never change. -/
theorem options_step (w : World) (e : Event) (q : Nat) :
    ((w.step e).pipelines q).options = (w.pipelines q).options := by
  cases e with
  | start owner request =>
    show ((w.start owner request).pipelines q).options = _
    rw [start_eq]
    show (replacePipeline w.pipelines owner ((w.pipelines owner).issue request).2 q).options = _
    by_cases h : q = owner
    · rw [h, replacePipeline_self]
      rfl
    · rw [replacePipeline_of_ne _ h]
  | arrival place answer =>
    show ((w.arrive place answer).pipelines q).options = _
    unfold arrive
    split <;> rfl
  | forget owner id =>
    show (replacePipeline w.pipelines owner ((w.pipelines owner).forget id) q).options = _
    by_cases h : q = owner
    · rw [h, replacePipeline_self]
      rfl
    · rw [replacePipeline_of_ne _ h]

/-- **A request changes only through its own answer**, and only if it waits for one. -/
theorem requests_step {w : World} {place : Nat} {u : Underway} (hu : w.requests[place]? = some u) (e : Event) :
    (w.step e).requests[place]? = some (u.settle (w.pipelines u.owner) (e.answerFor? place)) := by
  have hplace : place < w.requests.length := (List.getElem?_eq_some_iff.1 hu).1
  cases e with
  | start owner request =>
    show (w.start owner request).requests[place]? = some (u.settle _ none)
    rw [start_eq, Underway.settle_none]
    show (w.requests ++ [w.launched owner request])[place]? = some u
    rw [List.getElem?_append_left hplace, hu]
  | arrival i answer =>
    show (w.arrive i answer).requests[place]? = some (u.settle _ (if i = place then some answer else none))
    -- an answer for another place cannot reach the entry, and one for this place counts once
    by_cases hi : i = place
    · subst hi
      rw [if_pos rfl]
      cases hstage : u.stage with
      | waiting =>
        rw [arrive_waiting hu hstage]
        exact List.getElem?_set_self hplace
      | ended o =>
        rw [arrive_idle (by rw [hu]; rintro _ ⟨⟩; rw [hstage]; exact Stage.noConfusion), hu,
          Underway.settle_ended hstage]
    · rw [if_neg hi, Underway.settle_none]
      unfold arrive
      split
      · show (w.requests.set i _)[place]? = some u
        rw [List.getElem?_set_ne hi, hu]
      · exact hu
  | forget owner id =>
    show w.requests[place]? = some (u.settle _ none)
    rw [Underway.settle_none, hu]

/-- **A request is settled by the first answer that arrives for it.** -/
theorem requests_run {w : World} {place : Nat} {u : Underway} (hu : w.requests[place]? = some u)
    (events : List Event) :
    (w.run events).requests[place]?
      = some (u.settle (w.pipelines u.owner) (events.findSome? (Event.answerFor? place))) := by
  -- the entry itself changes on the way, so that it is general in the induction
  induction events generalizing w u with
  | nil => rw [run_nil, hu, List.findSome?_nil, Underway.settle_none]
  | cons e events ih =>
    have hrest := ih (requests_step hu e)
    rw [run_cons, hrest]
    show some ((u.settle _ _).settle ((w.step e).pipelines u.owner) _) = _
    rw [Underway.settle_settle (options_step w e u.owner), List.findSome?_cons]
    cases e.answerFor? place <;> rfl

/-! ## §3. Rows -/

/-- No request is added by an arrival. -/
theorem length_arrive (w : World) (place : Nat) (answer : Answer) :
    (w.arrive place answer).requests.length = w.requests.length := by
  unfold arrive
  split
  · exact List.length_set
  · rfl

/-- What a start leaves at the new place: the request, settled by the first answer that comes for it later. -/
theorem requests_run_start (w : World) (owner : Nat) (request : Request) (after : List Event) :
    ((w.step (.start owner request)).run after).requests[w.requests.length]?
      = some ((w.launched owner request).settle (w.pipelines owner)
          (after.findSome? (Event.answerFor? w.requests.length))) := by
  have hu : (w.step (.start owner request)).requests[w.requests.length]? = some (w.launched owner request) := by
    show (w.start owner request).requests[w.requests.length]? = _
    rw [start_eq]
    exact List.getElem?_concat_length
  have hsame := Underway.settle_settle (options_step w (.start owner request) owner) none
    (after.findSome? (Event.answerFor? w.requests.length)) (w.launched owner request)
  rw [Underway.settle_none, Option.none_or] at hsame
  rw [requests_run hu after]
  exact congrArg some hsame

/-- A document that has a name and nothing else. -/
def plainDocument (name : String) : Bytes :=
  Utf8.ofString ("\x7b\"name\":\"" ++ name ++ "\",\"data\":\x7b\x7d,\"layouts\":\x7b\x7d\x7d")

end World
end HomeWidget
