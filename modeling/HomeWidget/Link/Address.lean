import HomeWidget.Link.Basic
import HomeWidget.Number.Decimal
import HomeWidget.Text.Blank
import HomeWidget.Text.Cut
import HomeWidget.Text.Percent

/-!
# Links as addresses

A link is written as `widget://<action>?<name>=<value>&…`, every value escaped so that it holds none of the marks
that divide an address. Reading is more liberal than writing: parameters may come in any order and among others, a
name may itself be escaped, the first of several equal names counts, and an absent text is empty.
-/
namespace HomeWidget.Link

open Text

/-! ## §1. Writing -/

/-- What every link address starts with. -/
def scheme : List Char := "widget://".toList

/-- The parameters of a link, in the order in which they are written. -/
def parameters : Link → List (String × String)
  | cell url id index => [("url", url), ("id", id)] ++ (index.map fun i => ("index", toString i)).toList
  | surface url id => [("url", url), ("id", id)]
  | subscribe url user password =>
    [("url", url)] ++ (user.map (("user", ·))).toList ++ (password.map (("password", ·))).toList

/-- One parameter: its name, an equals sign and its escaped value. -/
def writeParameter (p : String × String) : List Char := p.1.toList ++ '=' :: Percent.encode p.2.toList

/-- Parameters with ampersands between them. -/
def writeQuery (ps : List (String × String)) : List Char := ['&'].intercalate (ps.map writeParameter)

/-- The address of a link. -/
def toAddress (link : Link) : String :=
  String.ofList (scheme ++ link.action.toList ++ '?' :: writeQuery link.parameters)

/-! ## §2. Reading -/

/-- Why a text is no link. -/
inductive AddressError where
  /-- The text does not start like a link. -/
  | notALink (text : String)
  /-- The action is none of the three. -/
  | unknownAction (action : String)
  deriving DecidableEq, Repr

/-- The error, in words. -/
def AddressError.message : AddressError → String
  | notALink text => "validation error: not a widget:// url: \"" ++ text ++ "\""
  | unknownAction action => "validation error: unknown deep link action \"" ++ action ++ "\""

/-- One parameter of a query; without an equals sign its value is empty. -/
def readParameter (segment : List Char) : String × String :=
  let (name, value) := cutOrAll ['='] segment
  (String.ofList (Percent.decode name), String.ofList (Percent.decode value))

/-- The parameters of a query, without its empty segments. -/
def readQuery (query : List Char) : List (String × String) :=
  ((query.splitOn '&').filter fun segment => !segment.isEmpty).map readParameter

/-- The number that an index text names: digits with an optional plus, in 64 bits. -/
def readIndex? (text : String) : Option Nat :=
  let ds := match text.toList with
    | '+' :: rest => rest
    | ds => ds
  if ds.isEmpty ∨ !ds.all Char.isDigit then none
  else
    let n := Decimal.ofDigits ds
    if n < 2 ^ 64 then some n else none

/-- The link with an action and parameters. -/
def ofParameters? (action : String) (ps : List (String × String)) : Option Link :=
  let text (name : String) : String := (ps.lookup name).getD ""
  match action with
  -- a text that is absent is empty, but an index or a credential stays absent
  | "link_url" => some (cell (text "url") (text "id") ((ps.lookup "index").bind readIndex?))
  | "launch_url" => some (surface (text "url") (text "id"))
  | "add_widget" => some (subscribe (text "url") (ps.lookup "user") (ps.lookup "password"))
  | _ => none

/-- The link that an address names, white space around it apart. -/
def ofAddress (text : String) : Except AddressError Link :=
  match stripStart? scheme (trim text.toList) with
  | none => .error (.notALink text)
  | some rest =>
    -- slashes after the action are of no account
    let (action, query) := cutOrAll ['?'] rest
    let action := String.ofList (dropEnd '/' action)
    match ofParameters? action (readQuery query) with
    | some link => .ok link
    | none => .error (.unknownAction action)

/-! ## §3. Pasted texts -/

/-- Does the text start like a link? -/
def isAddress (text : List Char) : Bool := (stripStart? scheme text).isSome

/--
The widget id in what a user pasted: the address that a link is about, or the text itself when it is no link that
can be read; without white space around it in either case.
-/
def widgetId (pasted : String) : String :=
  let text := trim pasted.toList
  match isAddress text, ofAddress (String.ofList text) with
  | true, .ok link => trimmed link.url
  | _, _ => String.ofList text

end HomeWidget.Link
