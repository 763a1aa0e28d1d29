import HomeWidget.Text.Hex
import HomeWidget.Text.Utf8

/-!
# Percent escapes

A byte of a text may be written as `%` and two hexadecimal digits. Writing escapes every byte that is not
kept: a query component keeps the unreserved characters of URLs, a path keeps `/` as well. Reading undoes the
escapes that are well formed, leaves every other byte as it stands, and then reads the bytes as UTF-8, damage
included; so it accepts every text.
-/
namespace HomeWidget.Percent

/-! ## §1. Writing -/

/-- Letters, digits and `-._~`, which never need an escape. -/
def isUnreserved (b : UInt8) : Bool :=
  let c := Char.ofNat b.toNat
  c.isAlphanum || c == '-' || c == '.' || c == '_' || c == '~'

/-- What a path keeps: the unreserved characters and the separator. -/
def isPathByte (b : UInt8) : Bool := isUnreserved b || b == 0x2F

/-- One byte as it is written. -/
def encodeByte (keep : UInt8 → Bool) (b : UInt8) : List Char :=
  if keep b then [Char.ofNat b.toNat] else '%' :: Hex.padded Hex.upper 2 b.toNat

/-- A text with every byte escaped that `keep` does not keep. -/
def encodeWith (keep : UInt8 → Bool) (text : List Char) : List Char :=
  (Utf8.encode text).flatMap (encodeByte keep)

/-- A text as a component of a query. -/
def encode (text : List Char) : List Char := encodeWith isUnreserved text

/-- A text as a path. -/
def encodePath (text : List Char) : List Char := encodeWith isPathByte text

/-! ## §2. Reading -/

/-- The value of a byte that stands for a hexadecimal digit. -/
def digit? (b : UInt8) : Option Nat := Hex.value? (Char.ofNat b.toNat)

/-- The byte that `%` followed by these two bytes stands for. -/
def escaped? (high low : UInt8) : Option UInt8 := do
  let h ← digit? high
  let l ← digit? low
  pure (UInt8.ofNat (h * 16 + l))

/-- Undoes well-formed escapes, from the left, none inside another. -/
def decodeBytes : Bytes → Bytes
  | 0x25 :: high :: low :: rest =>
    match escaped? high low with
    | some b => b :: decodeBytes rest
    -- no escape: the sign stands for itself, and one may begin right after it
    | none => 0x25 :: decodeBytes (high :: low :: rest)
  | b :: rest => b :: decodeBytes rest
  | [] => []

/-- The text that an escaped text stands for. -/
def decode (text : List Char) : List Char := Utf8.decodeLossy (decodeBytes (Utf8.encode text))

end HomeWidget.Percent
