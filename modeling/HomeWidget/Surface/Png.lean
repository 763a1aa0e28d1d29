import HomeWidget.Number.Power
import HomeWidget.Surface.Canvas
import HomeWidget.Text.Utf8

/-!
# Pictures as PNG files

A picture is written in the plainest form that the format allows: eight bits for each of four channels, no filter, no
interlacing, and the pixel data stored rather than compressed. Reading takes files of that form back.
-/
namespace HomeWidget.Surface.Png

/-! ## §1. Checks -/

/-- A number as four bytes, the highest first. -/
def bigEndian (n : Nat) : Bytes := [24, 16, 8, 0].map fun shift => UInt8.ofNat (n / 2 ^ shift)

/-- The number of a sequence of bytes, the highest first. -/
def number (bytes : Bytes) : Nat := bytes.foldl (fun n b => n * 256 + b.toNat) 0

/-- One step of the cyclic redundancy check, by a bit. -/
def crcBit (c : UInt32) : UInt32 := if c % 2 = 1 then (0xEDB88320 : UInt32) ^^^ (c >>> 1) else c >>> 1

/-- The check after one more byte. -/
def crcByte (c : UInt32) (b : UInt8) : UInt32 :=
  crcBit (crcBit (crcBit (crcBit (crcBit (crcBit (crcBit (crcBit (c ^^^ b.toUInt32))))))))

/-- The cyclic redundancy check of a sequence of bytes. -/
def crc (bytes : Bytes) : UInt32 := (bytes.foldl crcByte 0xFFFFFFFF) ^^^ (0xFFFFFFFF : UInt32)

/-- The two sums of the check of a data stream, modulo the largest prime below `2 ^ 16`. -/
def adler (bytes : Bytes) : Nat :=
  let (a, b) := bytes.foldl (fun (a, b) byte =>
    let a := (a + byte.toNat) % 65521
    (a, (b + a) % 65521)) (1, 0)
  b * 65536 + a

/-! ## §2. Writing -/

/-- The eight bytes that every file starts with. -/
def signature : Bytes := [0x89, 0x50, 0x4E, 0x47, 0x0D, 0x0A, 0x1A, 0x0A]

/-- A chunk: the length of its data, its name, its data, and the check of the last two. -/
def chunk (name : String) (data : Bytes) : Bytes :=
  let body := Utf8.ofString name ++ data
  bigEndian data.length ++ body ++ bigEndian (crc body).toNat

/-- The most data that one stored block holds. -/
def blockSize : Nat := 65535

/-- Data in stored blocks, the last one marked; `bound` is at least the number of blocks. -/
def blocks : Nat → Bytes → Bytes
  | 0, _ => []
  | bound + 1, data =>
    let now := data.take blockSize
    let later := data.drop blockSize
    let size := now.length
    let little (n : Nat) : Bytes := [UInt8.ofNat n, UInt8.ofNat (n / 256)]
    -- the length twice, the second time with all its bits turned
    (if later.isEmpty then 1 else 0) :: little size ++ little (65535 - size) ++ now ++
      if later.isEmpty then [] else blocks bound later

/-- A data stream that stores its data. -/
def stream (data : Bytes) : Bytes :=
  [0x78, 0x01] ++ blocks (data.length / blockSize + 1) data ++ bigEndian (adler data)

/-- The rows of a picture, each with the mark of no filter before it. -/
def scanlines (p : Picture) : Bytes := p.rows.flatMap fun row => 0 :: row.flatten

/-- A picture as a file. -/
def encode (p : Picture) : Bytes :=
  signature ++ chunk "IHDR" (bigEndian p.width ++ bigEndian p.height ++ [8, 6, 0, 0, 0]) ++
    chunk "IDAT" (stream (scanlines p)) ++ chunk "IEND" []

/-! ## §3. Reading -/

/-- The data of the chunks of one name; `bound` is at least the number of chunks. -/
def chunks (name : String) : Nat → Bytes → Bytes
  | 0, _ => []
  | bound + 1, file =>
    let size := number (file.take 4)
    let rest := file.drop 4
    if rest.isEmpty then []
    else
      let data := if rest.take 4 = Utf8.ofString name then (rest.drop 4).take size else []
      data ++ chunks name bound (rest.drop (size + 8))

/-- The data in stored blocks; `bound` is at least the number of blocks. -/
def unblock : Nat → Bytes → Option Bytes
  | 0, _ => none
  | bound + 1, last :: low :: high :: _ :: _ :: rest =>
    let size := low.toNat + high.toNat * 256
    if last = 1 then some (rest.take size)
    else if last = 0 then (unblock bound (rest.drop size)).map (rest.take size ++ ·)
    else none
  | _, _ => none

/-- A list in pieces of four. -/
def pixels : Bytes → List Bytes
  | a :: b :: c :: d :: rest => [a, b, c, d] :: pixels rest
  | _ => []

/-- So many rows of so many bytes, each after the mark of no filter. -/
def unscan (rowSize : Nat) : Nat → Bytes → Option (List (List Bytes))
  | 0, _ => some []
  | count + 1, data =>
    match data with
    | 0 :: rest => (unscan rowSize count (rest.drop rowSize)).map (pixels (rest.take rowSize) :: ·)
    | _ => none

/-- The picture of a file in the form that `encode` writes. -/
def decode? (file : Bytes) : Option Picture := do
  if file.take 8 ≠ signature then none
  else
    let rest := file.drop 8
    let header := chunks "IHDR" 16 rest
    let width := number (header.take 4)
    let height := number ((header.drop 4).take 4)
    let data ← unblock (rest.length / blockSize + 2) ((chunks "IDAT" 16 rest).drop 2)
    let rows ← unscan (4 * width) height data
    pure ⟨width, height, rows⟩

end HomeWidget.Surface.Png
