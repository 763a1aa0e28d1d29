import HomeWidget.Fetch.Failure
import HomeWidget.Fetch.Store
import HomeWidget.Fetch.Tokens
import HomeWidget.Fetch.Transport

/-!
# Resolving ids

An id becomes a widget in two steps with a call between them. The first step issues a token, and answers at once if it
may use the store and finds a document there, or if there is nothing to call; otherwise it says what to call. The
second step takes what the call brought: it decodes a document, stamps it with the address that it came from in the
end, and puts it into the store if it is asked to. A store that fails is a store without rows.

The steps are separate because several requests may be under way at once: each step is done as a whole, and anything
may happen between them.
-/
namespace HomeWidget

/-! ## §1. Requests and outcomes -/

/-- What a host asks for. -/
structure Request where
  id : String
  user : Option String
  password : Option String
  /-- Answer with a stored document, if there is one. -/
  allowStored : Bool
  /-- Store the document that a call brings. -/
  keep : Bool
  deriving DecidableEq, Repr

namespace Request

/-- The id without white space around it. -/
def target (request : Request) : String := Text.trimmed request.id

/-- The call that a request makes. -/
def call (request : Request) : Call := ⟨request.target, requestHeaders request.user request.password⟩

end Request

/-- Where a widget came from. -/
inductive Source where
  | cache
  | network
  deriving DecidableEq, Repr

/-- The name of a source. -/
def Source.name : Source → String
  | cache => "cache"
  | network => "network"

/-- What became of a request. -/
abbrev Resolution := Except Failure (Widget Float × Source)

/-- What a host is told of a request. -/
structure Outcome where
  token : Token
  requestedId : String
  result : Resolution
  /-- What a user is told; empty on success. -/
  errorText : String

namespace Outcome

/-- The widget, if it arrived. -/
def widget? (o : Outcome) : Option (Widget Float) :=
  match o.result with
  | .ok (widget, _) => some widget
  | .error _ => none

/-- The failure, if there was one. -/
def failure? (o : Outcome) : Option Failure :=
  match o.result with
  | .ok _ => none
  | .error failure => some failure

/-- Should the user be asked for credentials? -/
def needsCredentials (o : Outcome) : Bool := o.failure?.any Failure.needsCredentials

end Outcome

/-! ## §2. The two steps -/

/-- What holds for all requests of a host. -/
structure FetchOptions where
  /-- Keep extra large layouts. -/
  supportsExtraLarge : Bool
  /-- What a user is told of a failure that has no words of its own. -/
  genericMessage : String
  deriving DecidableEq, Repr

namespace FetchOptions

/-- No extra large layouts, and the usual words. -/
def usual : FetchOptions := ⟨false, Failure.genericMessage⟩

/-- The widget that a document describes, under an id. -/
def decode (options : FetchOptions) (bytes : Bytes) (id : String) : Except Failure (Widget Float) :=
  match Draft.readBytes bytes with
  | .ok draft => .ok ⟨id, draft.restrict options.supportsExtraLarge⟩
  | .error e => .error (.ofDefinitionError e)

end FetchOptions

/-- How the first step ends. -/
inductive Started where
  | answered (result : Resolution)
  | calling (call : Call)

section

variable {m : Type → Type} [Monad m]

/-- The widget of a stored document, if there is one that can be decoded. -/
def stored? (store : RowStore m) (options : FetchOptions) (id : String) : m (Option (Widget Float)) := do
  match ← store.get id with
  | .ok (some bytes) => pure (options.decode bytes id).toOption
  -- a store that fails counts as one without the row
  | _ => pure none

/-- The first step: a stored document, or a call, or no answer at all. -/
def startResolve (store : RowStore m) (options : FetchOptions) (request : Request) : m Started := do
  let found ← if request.allowStored then stored? store options request.target else pure none
  match found with
  | some widget => pure (.answered (.ok (widget, .cache)))
  | none =>
    if isRequestable request.target then pure (.calling request.call)
    else pure (.answered (.error .networkUnavailable))

/-- The id of a document that was served: the address that it came from, or the requested id if that is blank. -/
def finalId (request : Request) (response : Response) : String :=
  let final := Text.trimmed response.finalUrl
  if final.isEmpty then request.target else final

/-- The second step: what a call brought. -/
def finishResolve (store : RowStore m) (options : FetchOptions) (request : Request)
    (answer : Except TransportError Response) : m Resolution := do
  match answer with
  | .error _ => pure (.error .networkUnavailable)
  | .ok response =>
    if response.status = 200 then
      let id := finalId request response
      match options.decode response.body id with
      | .error failure => pure (.error failure)
      | .ok widget =>
        -- what the store says to this is of no account
        if request.keep then
          let _ ← store.put id response.body
        pure (.ok (widget, .network))
    else if response.status = 401 then pure (.error .authenticationRequired)
    else pure (.error (.httpError response.status))

end

/-! ## §3. The pipeline -/

/-- What a host keeps between requests, the store apart. -/
structure Pipeline where
  options : FetchOptions
  tokens : TokenBook

namespace Pipeline

/-- A pipeline that has seen no request. -/
def new (options : FetchOptions) : Pipeline := ⟨options, .empty⟩

/-- The token of a new request. -/
def issue (p : Pipeline) (request : Request) : Token × Pipeline :=
  let (token, tokens) := p.tokens.issue request.target
  (token, { p with tokens })

/-- Is the token the latest of an id, white space around it apart? -/
def isLatest (p : Pipeline) (id : String) (token : Token) : Bool := p.tokens.isLatest (Text.trimmed id) token

/-- The pipeline without the token of an id. -/
def forget (p : Pipeline) (id : String) : Pipeline := { p with tokens := p.tokens.forget (Text.trimmed id) }

/-- What a host is told of a request that ended so. -/
def outcome (p : Pipeline) (token : Token) (request : Request) (result : Resolution) : Outcome :=
  { token, requestedId := request.target, result,
    errorText :=
      match result with
      | .ok _ => ""
      | .error failure => failure.userMessage p.options.genericMessage }

variable {m : Type → Type} [Monad m]

/-- A request from its start to its end, with nothing in between. -/
def resolve (transport : Transport m) (store : RowStore m) (p : Pipeline) (request : Request) :
    m (Outcome × Pipeline) := do
  -- the token is issued first, so that even a request that fails supersedes earlier ones
  let (token, p) := p.issue request
  let result ← match ← startResolve store p.options request with
    | .answered result => pure result
    | .calling call => do finishResolve store p.options request (← transport call)
  pure (p.outcome token request result, p)

end Pipeline
end HomeWidget
