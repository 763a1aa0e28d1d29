import HomeWidget.Files.Address
import HomeWidget.Text.Base64

/-!
# Requests and responses

What goes out for a widget, and what may come back. An id can be requested if it looks like an absolute address: a
scheme, `://`, and something after it. A transport either answers, with any status, or fails without an answer.
-/
namespace HomeWidget

/-! ## §1. Requests -/

/-- A name and a value sent along with a request. -/
abbrev Header := String × String

/-- A request that goes out. -/
structure Call where
  url : String
  headers : List Header
  deriving DecidableEq, Repr

/-- A letter, a digit or one of `+-.`, all in ASCII. -/
def isSchemeChar (c : Char) : Bool := c.isAlphanum || c == '+' || c == '-' || c == '.'

/-- Does an id look like an absolute address? -/
def isRequestable (id : String) : Bool :=
  match Text.cut? "://".toList id.toList with
  | some (scheme, rest) => !rest.isEmpty && scheme.head?.any Char.isAlpha && scheme.all isSchemeChar
  | none => false

/-- What is sent along: the accepted format, and credentials if both parts of them are there. -/
def requestHeaders (user password : Option String) : List Header :=
  ("Accept", "application/json") ::
    match user, password with
    | some user, some password =>
      -- half of the credentials is none
      if user.isEmpty ∨ password.isEmpty then []
      else
        let credentials := Utf8.ofString (user ++ ":" ++ password)
        [("Authorization", "Basic " ++ String.ofList (Base64.encode credentials))]
    | _, _ => []

/-! ## §2. Responses -/

/-- What came back. -/
structure Response where
  status : Nat
  body : Bytes
  /-- The address that the response was served from in the end. -/
  finalUrl : String
  deriving DecidableEq, Repr

/-- Why nothing came back. -/
inductive TransportError where
  /-- The transport does not serve such addresses. -/
  | unsupported (url : String)
  /-- A file could not be read. -/
  | file (path : String) (fault : Fault)
  /-- The connection failed, in words. -/
  | lost (reason : String)
  deriving DecidableEq, Repr

/-- The error, in words. -/
def TransportError.message : TransportError → String
  | unsupported url => "transport error: unsupported url \"" ++ url ++ "\""
  | file path _ => "read " ++ path
  | lost reason => "transport error: " ++ reason

/-- A way to send calls. -/
abbrev Transport (m : Type → Type) := Call → m (Except TransportError Response)

/-- Serves file addresses from the file system: a file with success, its absence with status 404. -/
def Transport.files {m : Type → Type} [Monad m] (files : FileSystem m) : Transport m := fun call => do
  match FilePath.ofAddress? call.url with
  | none => pure (.error (.unsupported call.url))
  | some path =>
    match ← files.read path with
    | .ok body => pure (.ok ⟨200, body, call.url⟩)
    | .error .notFound => pure (.ok ⟨404, [], call.url⟩)
    | .error fault => pure (.error (.file path fault))

end HomeWidget
