import HomeWidget.Table

/-!
# JSON values

A value as the text spells it: whole numbers and doubles are told apart, because a version must be whole, and the
members of an object keep their order, because the order of layouts is shown.
-/
namespace HomeWidget

/-- A number of a JSON text. Whole numbers lie in `[-2 ^ 63, 2 ^ 64)`; what lies beyond is a double. -/
inductive Json.Number where
  | whole (n : Int)
  | double (x : Float)
  deriving BEq, Repr

/-- A JSON value. -/
inductive Json where
  | null
  | bool (b : Bool)
  | number (n : Json.Number)
  | string (s : String)
  | array (items : List Json)
  | object (members : List (String × Json))
  deriving Repr

namespace Json

instance : Inhabited Json := ⟨null⟩

/-- The nearest double of a number. -/
def Number.toFloat : Number → Float
  | .whole n => Float.ofInt n
  | .double x => x

/-- A double as a value; one that is infinite or not a number has no numeral and is written as `null`. -/
def ofFloat (x : Float) : Json := if x.isFinite then number (.double x) else null

/-- A count as a value. -/
def ofNat (n : Nat) : Json := number (.whole n)

/-- A string, or `null` where there is none. -/
def stringOrNull : Option String → Json
  | some s => string s
  | none => null

/-- The member that an object gains from a value that may be absent: none when it is. -/
def member? {α : Type} (name : String) (value : Option α) (write : α → Json) : List (String × Json) :=
  (value.map fun v => (name, write v)).toList

/-- A member of an object by name. Of anything else, nothing. -/
def get? (name : String) : Json → Option Json
  | object members => members.lookup name
  | _ => none

/-- The items of an array. -/
def items? : Json → Option (List Json)
  | array items => some items
  | _ => none

/-- The members of an object. -/
def members? : Json → Option (List (String × Json))
  | object members => some members
  | _ => none

end Json
end HomeWidget
