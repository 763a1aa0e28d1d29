import HomeWidget.Fetch.Resolve

/-!
# Rehearsals

A run of a pipeline with everything around it laid down: the rows of the store, which of the store's operations fail,
and the reply to every call in turn. A reply may be late by a number of rounds. Requests that are made together start
in their order in the first round; one whose reply is not late ends in the round in which it started, and the others
end in the rounds of their replies, those of one round in the order of the requests.
-/
namespace HomeWidget

/-- What is laid down for one call: its answer, and by how many rounds it is late. -/
structure Reply where
  answer : Except TransportError Response
  delay : Nat

/-- The surroundings of a pipeline: rows, replies still to come by address, and the calls made so far, last first. -/
structure Rehearsal where
  rows : RowStore.Rows
  replies : Table (List Reply)
  calls : List Call

namespace Rehearsal

/-! ## §1. Store and transport -/

/-- The store of a rehearsal, of which some operations may always fail. -/
def store (fails : RowStore.Operation → Bool) (reason : String) : RowStore (StateM Rehearsal) :=
  (RowStore.memory.within rows fun rows r => { r with rows }).failing fails reason

/-- The reply to a call without one laid down. -/
def noReply : Reply := ⟨.error (.lost "no route"), 0⟩

/-- The next reply to a call, which is noted. The last reply for an address is given again and again. -/
def take (call : Call) : StateM Rehearsal Reply := fun r =>
  let r := { r with calls := call :: r.calls }
  match r.replies.get? call.url with
  | some (reply :: next :: rest) => (reply, { r with replies := r.replies.insert call.url (next :: rest) })
  | some [reply] => (reply, r)
  | _ => (noReply, r)

/-- The transport of a rehearsal, for requests that are made one at a time. -/
def transport : Transport (StateM Rehearsal) := fun call => do pure (← take call).answer

/-! ## §2. Requests made together -/

/-- A request that has started, at its place among those made together. -/
structure Pending where
  place : Nat
  token : Token
  request : Request
  reply : Reply

/-- How the start of a request ended: with an outcome, or with a reply to wait for. -/
abbrev Launched := Sum (Nat × Outcome) Pending

/-- The end of a request whose reply has come. -/
def land (store : RowStore (StateM Rehearsal)) (p : Pipeline) (w : Pending) : StateM Rehearsal (Nat × Outcome) := do
  let result ← finishResolve store p.options w.request w.reply.answer
  pure (w.place, p.outcome w.token w.request result)

/-- The start of a request, and its end if nothing has to be waited for. -/
def launch (store : RowStore (StateM Rehearsal)) (p : Pipeline) (place : Nat) (request : Request) :
    StateM Rehearsal (Launched × Pipeline) := do
  let (token, p) := p.issue request
  match ← startResolve store p.options request with
  | .answered result => pure (.inl (place, p.outcome token request result), p)
  | .calling call =>
    let pending : Pending := ⟨place, token, request, ← take call⟩
    if pending.reply.delay = 0 then pure (.inl (← land store p pending), p) else pure (.inr pending, p)

/-- The starts of requests made together, in their order. -/
def launchAll (store : RowStore (StateM Rehearsal)) (p : Pipeline) :
    Nat → List Request → StateM Rehearsal (List Launched × Pipeline)
  | _, [] => pure ([], p)
  | place, request :: rest => do
    let (launched, p) ← launch store p place request
    let (more, p) ← launchAll store p (place + 1) rest
    pure (launched :: more, p)

/-- Those that wait, in the order in which their replies come. -/
def inRounds (waiting : List Pending) : List Pending :=
  -- round by round, those of one round in the order of their starts
  let last := (waiting.map (·.reply.delay)).foldl max 0
  (List.range (last + 1)).flatMap fun round => waiting.filter (·.reply.delay = round)

/-- Requests made together: their outcomes by place, in the order in which they came. -/
def together (store : RowStore (StateM Rehearsal)) (p : Pipeline) (requests : List Request) :
    StateM Rehearsal (List (Nat × Outcome) × Pipeline) := do
  let (launched, p) ← launchAll store p 0 requests
  let atOnce := launched.filterMap Sum.getLeft?
  let later ← (inRounds (launched.filterMap Sum.getRight?)).mapM (land store p)
  pure (atOnce ++ later, p)

end Rehearsal
end HomeWidget
