import HomeWidget.Definition.Decode
import HomeWidget.Definition.Required
import HomeWidget.Json.Reader

/-!
# Reading definitions

The bytes of a document become a draft in three steps, each of which may end the reading: the text must be JSON and
its root an object; every required property must be there; every property must be of its type. A property that is
missing is reported by name and place, since the author of the document can mend it.
-/
namespace HomeWidget

/-- Why a document could not be decoded, other than for a missing property. -/
inductive Undecodable where
  /-- The bytes are no JSON text. -/
  | notJson
  /-- The root of the document is no object. -/
  | notAnObject
  /-- A property is not of its type. -/
  | mismatch (m : Mismatch)
  /-- Any other cause, in words. -/
  | other (message : String)
  deriving DecidableEq, Repr

/-- The cause, in words. -/
def Undecodable.message : Undecodable → String
  | notJson => "text is not JSON"
  | notAnObject => "widget definition must be a JSON object"
  | mismatch m => m.message
  | other message => message

/-- Why bytes are no definition. -/
inductive DefinitionError where
  /-- A required property is absent or of the wrong kind; `parent` is the path of the object that should hold it. -/
  | missingProperty (field : String) (parent : Option String)
  | undecodable (cause : Undecodable)
  deriving DecidableEq, Repr

/-- The place of a property, as it follows its name. -/
def inObject : Option String → String
  | some parent => " in object '" ++ parent ++ "'"
  | none => ""

/-- The error, in words. -/
def DefinitionError.message : DefinitionError → String
  | missingProperty field parent => "missing or invalid property '" ++ field ++ "'" ++ inObject parent
  | undecodable cause => "could not decode widget definition: " ++ cause.message

/-- The missing property that a gap is. -/
def DefinitionError.ofGap (gap : Required.Gap) : DefinitionError := missingProperty gap.field gap.parent?

namespace Draft

/-- The draft that a JSON value describes. -/
def read (root : Json) : Except DefinitionError (Draft Float) := do
  if root.members?.isNone then throw (.undecodable .notAnObject)
  (Required.check root).mapError .ofGap
  (Draft.ofJson root).mapError fun m => .undecodable (.mismatch m)

/-- The draft that the bytes of a document describe. -/
def readBytes (bytes : Bytes) : Except DefinitionError (Draft Float) :=
  match Json.parseBytes? bytes with
  | some root => read root
  | none => .error (.undecodable .notJson)

end Draft
end HomeWidget
