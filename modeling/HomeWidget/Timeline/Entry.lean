import HomeWidget.Definition.Encode
import HomeWidget.Fetch.Resolve
import HomeWidget.Surface.Layout
import HomeWidget.Timeline.Subscription

/-!
# Timeline entries

What a home screen shows of a subscription from a given date on. An entry is always made: without a subscription it
asks to be configured, and where the widget did not arrive it carries the reason and shows an unknown layout. Fresh
documents are always preferred, and refresh the store.
-/
namespace HomeWidget

/-- What a surface shows, and from when on. -/
structure Entry where
  date : Timestamp
  /-- The id of the subscription; empty without one. -/
  url : String
  widget : Option (Widget Float)
  layoutName : String
  user : String
  password : String
  /-- What the user is told; empty on success. -/
  errorText : String

namespace Entry

/-- An entry of which nothing is configured. -/
def empty (date : Timestamp) : Entry := ⟨date, "", none, "", "", "", ""⟩

/-- The entry of a subscription, given what became of its request. -/
def ofOutcome (date : Timestamp) (s : Subscription) (o : Outcome) : Entry :=
  { date, url := s.id, widget := o.widget?, layoutName := s.layoutName, user := s.user.getD "",
    password := s.password.getD "", errorText := o.errorText }

/-- Is there a layout to be chosen? -/
def needsConfiguration (e : Entry) : Bool := e.layoutName.isEmpty

/-- The surface of an entry. -/
def primitives (e : Entry) (size : SizeClass) (target : Size Float) : List (Primitive Float) :=
  if e.needsConfiguration then Surface.configure size target
  else
    match e.widget with
    | some widget => Surface.render Reading.float widget e.layoutName target ⟨false, .light⟩
    | none => Surface.unknownLayout target .light

/-- An entry as JSON; the password stays out of it. -/
def toJson (e : Entry) : Json :=
  .object [("date", .string e.date.write), ("url", .string e.url),
    ("widget", (e.widget.map Widget.toJson).getD .null), ("layout_name", .string e.layoutName),
    ("user", .string e.user), ("error_text", .string e.errorText)]

end Entry

/-- The request of a subscription: fresh, and kept. -/
def Subscription.request (s : Subscription) : Request := ⟨s.id, s.user, s.password, false, true⟩

section

variable {m : Type → Type} [Monad m]

/-- The entry of a subscription from a date on. -/
def buildEntry (transport : Transport m) (store : RowStore m) (p : Pipeline) (subscription : Option Subscription)
    (date : Timestamp) : m (Entry × Pipeline) := do
  match subscription with
  | none => pure (.empty date, p)
  | some s =>
    let (outcome, p) ← p.resolve transport store s.request
    pure (.ofOutcome date s outcome, p)

end

/-- Milliseconds between an entry and the next one, where the host says nothing else: a quarter of an hour. -/
def usualRefresh : Int := 15 * 60 * 1000

/-- The date of the entry after `now`. -/
def refreshDate (interval : Int) (now : Timestamp) : Timestamp := now.addMillis interval

end HomeWidget
