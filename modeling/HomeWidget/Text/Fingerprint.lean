import HomeWidget.Text.Hex
import HomeWidget.Text.Utf8

/-!
# Fingerprints

The FNV-1a hash of 64 bits: starting from the offset basis, each byte is mixed in by an exclusive or, and the
result is multiplied by the prime. Cached rows are named by the fingerprint of their id.
-/
namespace HomeWidget.Fingerprint

/-- The state before any byte. -/
def offsetBasis : UInt64 := 0xcbf29ce484222325

/-- The multiplier of each step. -/
def prime : UInt64 := 0x00000100000001B3

/-- The state after one more byte. -/
def mix (state : UInt64) (b : UInt8) : UInt64 := (state ^^^ b.toUInt64) * prime

/-- The hash of a sequence of bytes. -/
def ofBytes (bytes : Bytes) : UInt64 := bytes.foldl mix offsetBasis

/-- A hash as sixteen lower-case digits. -/
def toHex (h : UInt64) : String := String.ofList (Hex.padded Hex.lower 16 h.toNat)

end HomeWidget.Fingerprint
