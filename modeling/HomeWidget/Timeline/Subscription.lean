import HomeWidget.Definition.Decode
import HomeWidget.Definition.Read
import HomeWidget.Fetch.Store

/-!
# Subscriptions

A user subscribes to a widget at a size of surface. From the subscriptions and the stored documents follow the options
for configuring a surface, and which rows of the store nobody needs any more.
-/
namespace HomeWidget

/-- One widget at one size. -/
structure Subscription where
  id : String
  user : Option String
  password : Option String
  layoutName : String
  size : SizeClass
  deriving BEq, DecidableEq, Repr

namespace Subscription

open Json Decode

/-- A subscription as JSON. -/
def toJson (s : Subscription) : Json :=
  object ([("id", .string s.id)] ++ member? "user" s.user .string ++ member? "password" s.password .string ++
    [("layout_name", .string s.layoutName), ("size", .string s.size.name)])

/-- A subscription from JSON. -/
def ofJson (json : Json) : Decoded Subscription := do
  let ms ← recordMembers ["id", "user", "password", "layout_name", "size"] json
  pure
    { id := ← required ms "id" asText, user := ← ifGiven ms "user" asText,
      password := ← ifGiven ms "password" asText, layoutName := ← required ms "layout_name" asText,
      size := ← required ms "size" SizeClass.ofJson }

/-- The subscription to a widget at a size; of several the last. -/
def select? (subscriptions : List Subscription) (id : String) (size : SizeClass) : Option Subscription :=
  subscriptions.reverse.find? fun s => s.id == id && s.size == size

end Subscription

/-- A widget that a surface can be configured with. -/
structure WidgetOption where
  identifier : String
  display : String
  size : SizeClass
  deriving DecidableEq, Repr

section

variable {m : Type → Type} [Monad m]

/-- The option that a subscription offers, if its stored document can be decoded. -/
def optionOf? (store : RowStore m) (s : Subscription) : m (Option WidgetOption) := do
  match ← store.get s.id with
  | .ok (some bytes) => pure ((Draft.readBytes bytes).toOption.map fun draft => ⟨s.id, draft.name, s.size⟩)
  | _ => pure none

/-- The options for a size, in the order of the subscriptions. -/
def configurableOptions (store : RowStore m) (size : SizeClass) : List Subscription → m (List WidgetOption)
  | [] => pure []
  | s :: rest => do
    let option ← if s.size = size then optionOf? store s else pure none
    let more ← configurableOptions store size rest
    pure (option.toList ++ more)

/-- Deletes the listed rows that no subscription names, and says which ones went. -/
def pruneRows (store : RowStore m) (subscriptions : List Subscription) : List String → m (List String)
  | [] => pure []
  | id :: rest => do
    let gone ←
      if subscriptions.any (·.id == id) then pure []
      else match ← store.delete id with
        | .ok () => pure [id]
        | .error _ => pure []
    let more ← pruneRows store subscriptions rest
    pure (gone ++ more)

end
end HomeWidget
