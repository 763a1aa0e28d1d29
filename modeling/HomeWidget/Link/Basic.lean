import HomeWidget.Json.Basic

/-!
# Links

What a surface can ask its host to do: open the address behind a cell, open the address behind the whole surface, or
subscribe to a widget. A link travels as a `widget://` address, whose host names the action.
-/
namespace HomeWidget

/-- A request to the host. -/
inductive Link where
  /-- A cell was activated: its address, the id of its widget, and its place in its row. -/
  | cell (url id : String) (index : Option Nat)
  /-- The whole surface was activated. -/
  | surface (url id : String)
  /-- A widget is offered for subscription, with credentials if it needs some. -/
  | subscribe (url : String) (user password : Option String)
  deriving BEq, DecidableEq, Repr

namespace Link

/-- The name of the action. -/
def action : Link → String
  | cell .. => "link_url"
  | surface .. => "launch_url"
  | subscribe .. => "add_widget"

/-- The address that the link is about. -/
def url : Link → String
  | cell url _ _ => url
  | surface url _ => url
  | subscribe url _ _ => url

/-- A link as JSON. -/
def toJson (link : Link) : Json :=
  .object <| ("action", .string link.action) ::
    match link with
    | cell url id index =>
      [("url", .string url), ("id", .string id), ("index", (index.map Json.ofNat).getD .null)]
    | surface url id => [("url", .string url), ("id", .string id)]
    | subscribe url user password =>
      [("url", .string url), ("user", Json.stringOrNull user), ("password", Json.stringOrNull password)]

end Link
end HomeWidget
