import HomeWidget.Definition.Read

/-!
# Failures of a fetch

Every way in which a widget can fail to arrive. All of them can be recovered from, and a user is told of most in the
same words; only a definition that lacks a property is reported precisely, since its author can mend it.
-/
namespace HomeWidget

/-- Why a widget did not arrive. -/
inductive Failure where
  /-- There was no response. -/
  | networkUnavailable
  /-- The response asked for credentials. -/
  | authenticationRequired
  /-- The response had another status than the one that means success. -/
  | httpError (status : Nat)
  /-- A property of the definition is missing. -/
  | malformedDefinition (field : String) (parent : Option String)
  /-- The definition could not be decoded. -/
  | undecodable (message : String)
  deriving DecidableEq, Repr

namespace Failure

/-- The failure, in words for a log. -/
def message : Failure → String
  | networkUnavailable => "network unavailable"
  | authenticationRequired => "authentication required"
  | httpError status => "unexpected http status " ++ toString status
  | malformedDefinition field _ => "malformed widget definition: missing or invalid property '" ++ field ++ "'"
  | undecodable message => "could not decode widget definition: " ++ message

/-- What a user is told of any failure that has no words of its own, unless the host has chosen others. -/
def genericMessage : String := "Please check URL and try again."

/-- The failure, in words for a user. -/
def userMessage (generic : String) : Failure → String
  | malformedDefinition field parent =>
    "Malformed widget definition\n\nMissing or invalid property: '" ++ field ++ "'" ++ inObject parent
  | _ => generic

/-- Should the user be asked for credentials? -/
def needsCredentials : Failure → Bool
  | authenticationRequired => true
  | _ => false

/-- The failure that an error in a definition is. -/
def ofDefinitionError : DefinitionError → Failure
  | .missingProperty field parent => malformedDefinition field parent
  | .undecodable cause => undecodable cause.message

end Failure
end HomeWidget
