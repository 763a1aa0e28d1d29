import HomeWidget.Json.Token
import HomeWidget.Text.Utf8

/-!
# Reading JSON

The reader goes through the tokens once and keeps the containers that are open on a stack. At each point it knows
what may come next; a finished value closes nothing, fills the innermost container, or is the answer. Names
that an object repeats collapse as they are met: the first place, the last value. At most `maxDepth` containers
may be open at a time.
-/
namespace HomeWidget.Json

/-- How many containers may be open inside one another. -/
def maxDepth : Nat := 127

/-- A container of which some is read. Items stand in reverse, members in order. -/
inductive Frame where
  | items (reversed : List Json)
  | members (members : List (String × Json))
  | valueOf (members : List (String × Json)) (name : String)
  deriving Repr

/-- What may come next. -/
inductive Expect where
  | value
  | itemOrClose
  | nameOrClose
  | name
  | colon
  | commaOrClose
  | nothing (answer : Json)
  deriving Repr

/-- The reader between two tokens: the open containers, innermost first, and what may come next. -/
structure Reader where
  stack : List Frame
  expect : Expect
  deriving Repr

namespace Reader

/-- Nothing is read yet. -/
def start : Reader := ⟨[], .value⟩

/-- A value is complete, and the given containers are open around it. -/
def put? (value : Json) : List Frame → Option Reader
  | [] => some ⟨[], .nothing value⟩
  | .items reversed :: outer => some ⟨.items (value :: reversed) :: outer, .commaOrClose⟩
  | .valueOf members name :: outer => some ⟨.members (Members.put name value members) :: outer, .commaOrClose⟩
  | .members _ :: _ => none

/-- Opens a container, if there may be one more. -/
def push? (reader : Reader) (frame : Frame) (expect : Expect) : Option Reader :=
  if reader.stack.length < maxDepth then some ⟨frame :: reader.stack, expect⟩ else none

/-- A value begins with this token. -/
def begin? (reader : Reader) : Token → Option Reader
  | .scalar value => put? value reader.stack
  | .openArray => reader.push? (.items []) .itemOrClose
  | .openObject => reader.push? (.members []) .nameOrClose
  | _ => none

/-- Closes the innermost container. -/
def close? (reader : Reader) (token : Token) : Option Reader :=
  match token, reader.stack with
  | .closeArray, .items reversed :: outer => put? (array reversed.reverse) outer
  | .closeObject, .members members :: outer => put? (object members) outer
  | _, _ => none

/-- The name of a member. -/
def name? (reader : Reader) (token : Token) : Option Reader :=
  match token, reader.stack with
  | .scalar (string name), .members members :: outer => some ⟨.valueOf members name :: outer, .colon⟩
  | _, _ => none

/-- A comma: the next item, or the name of the next member. -/
def comma? (reader : Reader) : Option Reader :=
  match reader.stack with
  | .items _ :: _ => some ⟨reader.stack, .value⟩
  | .members _ :: _ => some ⟨reader.stack, .name⟩
  | _ => none

/-- One more token. -/
def step? (reader : Reader) (token : Token) : Option Reader :=
  match reader.expect, token with
  | .value, token => reader.begin? token
  -- a bracket may close an empty container, but not follow a comma
  | .itemOrClose, .closeArray => reader.close? .closeArray
  | .itemOrClose, token => reader.begin? token
  | .nameOrClose, .closeObject => reader.close? .closeObject
  | .nameOrClose, token => reader.name? token
  | .name, token => reader.name? token
  | .colon, .colon => some ⟨reader.stack, .value⟩
  | .colon, _ => none
  | .commaOrClose, .comma => reader.comma?
  | .commaOrClose, token => reader.close? token
  -- the value is complete, and nothing may follow it
  | .nothing _, _ => none

/-- The value that is read, once it is complete. -/
def answer? (reader : Reader) : Option Json :=
  match reader.expect with
  | .nothing value => some value
  | _ => none

end Reader

/-- The value that a text spells; nothing if the text is not one value in strict JSON. -/
def parse? (text : List Char) : Option Json := do
  let tokens ← tokens? text
  let reader ← tokens.foldlM Reader.step? .start
  reader.answer?

/-- The value that the bytes of a text spell. -/
def parseBytes? (bytes : Bytes) : Option Json := do
  let text ← Utf8.decode? bytes
  parse? text

end HomeWidget.Json
