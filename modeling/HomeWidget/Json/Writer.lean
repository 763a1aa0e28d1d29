import HomeWidget.Json.Basic
import HomeWidget.Number.Shortest
import HomeWidget.Text.Hex

/-!
# Writing JSON

Two written forms: `compact`, without any blank, and `pretty`, with one item or member per line and two spaces
per level. Strings escape what they must and nothing else: the quotation mark, the backslash and the control
characters below the space. Doubles are written with the fewest digits that read back.
-/
namespace HomeWidget.Json

/-! ## §1. Strings and numbers -/

/-- One character as it stands in a string. -/
def escape (c : Char) : List Char :=
  match c with
  | '"' => ['\\', '"']
  | '\\' => ['\\', '\\']
  | '\x08' => ['\\', 'b']
  | '\t' => ['\\', 't']
  | '\n' => ['\\', 'n']
  | '\x0c' => ['\\', 'f']
  | '\r' => ['\\', 'r']
  -- the other control characters have no letter
  | c => if c.toNat < 0x20 then ['\\', 'u'] ++ Hex.padded Hex.lower 4 c.toNat else [c]

/-- A string between quotation marks. -/
def quote (s : String) : List Char := '"' :: s.toList.flatMap escape ++ ['"']

/-- The numeral of a number. -/
def Number.write : Number → List Char
  | .whole n => (toString n).toList
  | .double x => if x.isFinite then Shortest.write x else ['n', 'u', 'l', 'l']

/-- A value that is no container. -/
def writeScalar : Json → List Char
  | null => ['n', 'u', 'l', 'l']
  | bool true => ['t', 'r', 'u', 'e']
  | bool false => ['f', 'a', 'l', 's', 'e']
  | number n => n.write
  | string s => quote s
  | array _ => []
  | object _ => []

/-! ## §2. The compact form -/

mutual

/-- The value in compact form. -/
def compact : Json → List Char
  | array items => '[' :: compactItems items ++ [']']
  | object members => '\x7b' :: compactMembers members ++ ['\x7d']
  | value => writeScalar value
termination_by structural value => value

/-- Items with commas between them. -/
def compactItems : List Json → List Char
  | [] => []
  | [value] => compact value
  | value :: rest => compact value ++ ',' :: compactItems rest
termination_by structural items => items

/-- Members with commas between them. -/
def compactMembers : List (String × Json) → List Char
  | [] => []
  | [m] => compactMember m
  | m :: rest => compactMember m ++ ',' :: compactMembers rest
termination_by structural members => members

/-- A name, a colon and a value. -/
def compactMember : String × Json → List Char
  | (name, value) => quote name ++ ':' :: compact value
termination_by structural m => m

end

/-! ## §3. The pretty form -/

/-- A new line at a level. -/
def newLine (level : Nat) : List Char := '\n' :: List.replicate (2 * level) ' '

mutual

/-- The value in pretty form, its own lines at `level`. -/
def prettyAt (level : Nat) : Json → List Char
  | array [] => ['[', ']']
  | array items => '[' :: prettyItems (level + 1) items ++ newLine level ++ [']']
  | object [] => ['\x7b', '\x7d']
  | object members => '\x7b' :: prettyMembers (level + 1) members ++ newLine level ++ ['\x7d']
  | value => writeScalar value
termination_by structural value => value

/-- Items on lines of their own. -/
def prettyItems (level : Nat) : List Json → List Char
  | [] => []
  | [value] => newLine level ++ prettyAt level value
  | value :: rest => newLine level ++ prettyAt level value ++ ',' :: prettyItems level rest
termination_by structural items => items

/-- Members on lines of their own. -/
def prettyMembers (level : Nat) : List (String × Json) → List Char
  | [] => []
  | [m] => prettyMember level m
  | m :: rest => prettyMember level m ++ ',' :: prettyMembers level rest
termination_by structural members => members

/-- A line with a name, a colon and a value. -/
def prettyMember (level : Nat) : String × Json → List Char
  | (name, value) => newLine level ++ quote name ++ [':', ' '] ++ prettyAt level value
termination_by structural m => m

end

/-- The compact text of a value. -/
def toText (value : Json) : String := String.ofList (compact value)

/-- The pretty text of a value. -/
def toPretty (value : Json) : String := String.ofList (prettyAt 0 value)

end HomeWidget.Json
