/-!
# UTF-8

`encode` writes characters as bytes. `scan` reads bytes as characters, one byte at a time: between two characters
a byte opens the next one, and says how many more bytes are owed and in which range the first of them must lie; a
byte outside that range breaks the character off, is reported once, and is looked at again as an opening byte.

Two readings share the scan. `decode?` refuses bytes in which anything is broken. `decodeLossy` writes U+FFFD
for each broken piece, so a run of valid text around damage is kept.
-/
namespace HomeWidget

/-- File contents, message bodies and cached rows. -/
abbrev Bytes := List UInt8

namespace Utf8

/-! ## §1. Writing -/

/-- The bytes of the characters, one after the other. -/
def encode (cs : List Char) : Bytes := cs.flatMap String.utf8EncodeChar

/-! ## §2. Reading byte by byte -/

/-- A character of which some bytes are read: what they spell so far, how many are owed, and the range of the next. -/
structure Open where
  value : Nat
  owed : Nat
  low : Nat := 0x80
  high : Nat := 0xBF
  deriving Repr, DecidableEq

/-- What one byte adds: nothing yet, a character, or damage. -/
inductive Piece where
  | char (c : Char)
  | broken
  deriving Repr, DecidableEq

/-- A byte between characters: the piece that it completes, and the character that it opens. -/
def start (b : Nat) : List Piece × Option Open :=
  if b < 0x80 then ([.char (Char.ofNat b)], none)
  -- continuations without a start, and starts that only long forms have
  else if b < 0xC2 then ([.broken], none)
  else if b < 0xE0 then ([], some { value := b - 0xC0, owed := 1 })
  else if b = 0xE0 then ([], some { value := 0, owed := 2, low := 0xA0 })
  -- surrogates are no characters
  else if b = 0xED then ([], some { value := 0xD, owed := 2, high := 0x9F })
  else if b < 0xF0 then ([], some { value := b - 0xE0, owed := 2 })
  else if b = 0xF0 then ([], some { value := 0, owed := 3, low := 0x90 })
  else if b < 0xF4 then ([], some { value := b - 0xF0, owed := 3 })
  -- nothing lies beyond U+10FFFF
  else if b = 0xF4 then ([], some { value := 4, owed := 3, high := 0x8F })
  else ([.broken], none)

/-- A byte within a character: it continues the character, or breaks it off and starts anew. -/
def continueWith (o : Open) (b : Nat) : List Piece × Option Open :=
  if o.low ≤ b ∧ b ≤ o.high then
    let value := o.value * 64 + (b - 0x80)
    if o.owed ≤ 1 then ([.char (Char.ofNat value)], none)
    else ([], some { value := value, owed := o.owed - 1 })
  else
    -- the byte is not lost: it may open a character itself
    let (pieces, next) := start b
    (.broken :: pieces, next)

/-- The pieces of a sequence of bytes, given the character that is open before it. -/
def scan : Option Open → Bytes → List Piece
  | none, [] => []
  | some _, [] => [.broken]
  | none, b :: rest =>
    let (pieces, next) := start b.toNat
    pieces ++ scan next rest
  | some o, b :: rest =>
    let (pieces, next) := continueWith o b.toNat
    pieces ++ scan next rest

/-! ## §3. The two readings -/

/-- The character of a whole piece. -/
def Piece.char? : Piece → Option Char
  | .char c => some c
  | .broken => none

/-- The characters of well-formed bytes; nothing if any of them is damaged. -/
def decode? (bytes : Bytes) : Option (List Char) := (scan none bytes).mapM Piece.char?

/-- The characters of the bytes, with U+FFFD for each damaged piece. -/
def decodeLossy (bytes : Bytes) : List Char :=
  (scan none bytes).map fun p => p.char?.getD (Char.ofNat 0xFFFD)

/-! ## §4. Strings -/

/-- The bytes of a string. -/
def ofString (s : String) : Bytes := encode s.toList

/-- The string that well-formed bytes spell. -/
def toString? (bytes : Bytes) : Option String := (decode? bytes).map String.ofList

end Utf8
end HomeWidget
