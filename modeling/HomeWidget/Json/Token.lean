import HomeWidget.Json.Basic
import HomeWidget.Number.Decimal
import HomeWidget.Text.Hex

/-!
# Tokens of a JSON text

The lexer reads a text one character at a time. Between tokens it skips the four blanks of JSON; a letter opens a
word, a digit or a minus a numeral, and a quotation mark a string. Words and numerals end at the first character
that cannot continue them, which is then looked at again. Only at its end is a word compared with `null`,
`true` and `false`, and a numeral with the grammar of numbers.
-/
namespace HomeWidget.Json

/-- A token: a mark of punctuation, or a value that holds no other. -/
inductive Token where
  | openArray
  | closeArray
  | openObject
  | closeObject
  | colon
  | comma
  | scalar (value : Json)
  deriving Repr

/-! ## §1. Numbers and words -/

/-- Digits that start with a zero only if they are the zero. -/
def isWholePart : List Char → Bool
  | ['0'] => true
  | '0' :: _ => false
  | ds => !ds.isEmpty

/--
The number that a numeral spells: a whole number if it has neither point nor exponent, is not `-0` and fits in
64 bits, else the nearest double, which must be finite.
-/
def Number.ofText? (text : List Char) : Option Number := do
  let (negative, rest) := match text with
    | '-' :: rest => (true, rest)
    | rest => (false, rest)
  let (units, fraction, rest) := Decimal.takePoint rest
  let exponent ← Decimal.exponentPart? rest
  if !isWholePart units ∨ fraction = some [] then none
  else
    let size := Decimal.ofDigits units
    -- `-0` has a sign to keep and is a double, as is what does not fit
    if fraction.isNone ∧ rest.isEmpty ∧ !negative ∧ size < 2 ^ 64 then pure (.whole size)
    else if fraction.isNone ∧ rest.isEmpty ∧ negative ∧ 0 < size ∧ size ≤ 2 ^ 63 then pure (.whole (-size))
    else
      let x := (Decimal.ofParts negative units (fraction.getD []) exponent).toFloat
      if x.isFinite then pure (.double x) else none

/-- The value that a word names. -/
def ofWord? (word : List Char) : Option Json :=
  match String.ofList word with
  | "null" => some null
  | "true" => some (bool true)
  | "false" => some (bool false)
  | _ => none

/-! ## §2. Strings -/

/-- The character that a one-letter escape stands for. -/
def ofEscape? : Char → Option Char
  | '"' => some '"'
  | '\\' => some '\\'
  | '/' => some '/'
  | 'b' => some '\x08'
  | 'f' => some '\x0c'
  | 'n' => some '\n'
  | 'r' => some '\r'
  | 't' => some '\t'
  | _ => none

/-- How far the reading of a string has come. What is read so far stands in reverse. -/
inductive Quoted where
  /-- Between two characters. -/
  | plain
  /-- After a backslash. -/
  | escape
  /-- Within the four digits of a code unit. -/
  | unit (digits : List Char)
  /-- After the first half of a pair, which must be followed by a second one. -/
  | half (first : Nat)
  /-- After the backslash of the second half. -/
  | halfEscape (first : Nat)
  /-- Within the digits of the second half. -/
  | halfUnit (first : Nat) (digits : List Char)
  deriving Repr

/-- A code unit that opens a pair. -/
def isFirstHalf (unit : Nat) : Bool := 0xD800 ≤ unit && unit < 0xDC00

/-- A code unit that closes a pair. -/
def isSecondHalf (unit : Nat) : Bool := 0xDC00 ≤ unit && unit < 0xE000

/-- One more digit of a code unit; the code unit once there are four of them. -/
def addDigit? (digits : List Char) (c : Char) : Option (List Char ⊕ Nat) := do
  let _ ← Hex.value? c
  let digits := digits ++ [c]
  if digits.length < 4 then pure (.inl digits)
  else
    let code ← Hex.number? digits
    pure (.inr code)

/-- One more character inside a string: what is read in reverse, and where the reading stands. -/
def Quoted.step? (reversed : List Char) (c : Char) : Quoted → Option (List Char × Quoted)
  | .plain =>
    if c = '\\' then some (reversed, .escape)
    else if c.toNat < 0x20 then none
    else some (c :: reversed, .plain)
  | .escape =>
    if c = 'u' then some (reversed, .unit [])
    else (ofEscape? c).map fun e => (e :: reversed, .plain)
  | .unit digits => do
    match ← addDigit? digits c with
    | .inl digits => pure (reversed, .unit digits)
    | .inr code =>
      if isFirstHalf code then pure (reversed, .half code)
      -- a second half without a first is no character
      else if isSecondHalf code then none
      else pure (Char.ofNat code :: reversed, .plain)
  | .half first => if c = '\\' then some (reversed, .halfEscape first) else none
  | .halfEscape first => if c = 'u' then some (reversed, .halfUnit first []) else none
  | .halfUnit first digits => do
    match ← addDigit? digits c with
    | .inl digits => pure (reversed, .halfUnit first digits)
    | .inr second =>
      if isSecondHalf second then
        -- ten bits of each half
        pure (Char.ofNat (0x10000 + (first - 0xD800) * 0x400 + (second - 0xDC00)) :: reversed, .plain)
      else none

/-! ## §3. The lexer -/

/-- What the lexer is in the middle of. -/
inductive Lexer where
  | between
  | word (reversed : List Char)
  | numeral (reversed : List Char)
  | quoted (reversed : List Char) (at_ : Quoted)
  deriving Repr

namespace Lexer

/-- What may stand in a numeral. -/
def isNumeralChar (c : Char) : Bool := c.isDigit || c == '-' || c == '+' || c == '.' || c == 'e' || c == 'E'

/-- A character between tokens. -/
def open? (c : Char) : Option (List Token × Lexer) :=
  match c with
  | ' ' | '\t' | '\n' | '\r' => some ([], between)
  | '[' => some ([.openArray], between)
  | ']' => some ([.closeArray], between)
  | '\x7b' => some ([.openObject], between)
  | '\x7d' => some ([.closeObject], between)
  | ':' => some ([.colon], between)
  | ',' => some ([.comma], between)
  | '"' => some ([], quoted [] .plain)
  | c =>
    if c.isDigit ∨ c = '-' then some ([], numeral [c])
    else if c.isAlpha then some ([], word [c])
    else none

/-- The token of a word or numeral that ends here; within a string a text cannot end. -/
def close? : Lexer → Option (List Token)
  | between => some []
  | word reversed => (ofWord? reversed.reverse).map fun v => [.scalar v]
  | numeral reversed => (Number.ofText? reversed.reverse).map fun n => [.scalar (number n)]
  | quoted _ _ => none

/-- One more character: the tokens that it completes, and what the lexer is in then. -/
def step? (lexer : Lexer) (c : Char) : Option (List Token × Lexer) :=
  match lexer with
  | quoted reversed .plain =>
    if c = '"' then some ([.scalar (string (String.ofList reversed.reverse))], between)
    else (Quoted.step? reversed c .plain).map fun (r, q) => ([], quoted r q)
  | quoted reversed q => (Quoted.step? reversed c q).map fun (r, q) => ([], quoted r q)
  | word reversed =>
    -- the character that ends a word or a numeral is read again by itself
    if c.isAlpha then some ([], word (c :: reversed))
    else do
      let ended ← (word reversed).close?
      let (tokens, next) ← open? c
      pure (ended ++ tokens, next)
  | numeral reversed =>
    if isNumeralChar c then some ([], numeral (c :: reversed))
    else do
      let ended ← (numeral reversed).close?
      let (tokens, next) ← open? c
      pure (ended ++ tokens, next)
  | between => open? c

end Lexer

/-- One more character, the finished tokens being collected in reverse. -/
def collect? (state : List Token × Lexer) (c : Char) : Option (List Token × Lexer) := do
  let (tokens, next) ← state.2.step? c
  pure (tokens.reverse ++ state.1, next)

/-- The tokens of a text. -/
def tokens? (text : List Char) : Option (List Token) := do
  let (reversed, last) ← text.foldlM collect? ([], .between)
  let ended ← last.close?
  pure (reversed.reverse ++ ended)

end HomeWidget.Json
