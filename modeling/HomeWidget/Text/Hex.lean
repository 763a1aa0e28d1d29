import HomeWidget.Number.Power

/-!
# Hexadecimal digits

Colours, escapes, row names and fingerprints are written in digits of base sixteen. Reading takes both cases;
each use says which case it writes.
-/
namespace HomeWidget.Hex

/-- The value of a hexadecimal digit, of either case. -/
def value? (c : Char) : Option Nat :=
  if '0' ≤ c ∧ c ≤ '9' then some (c.toNat - '0'.toNat)
  else if 'a' ≤ c ∧ c ≤ 'f' then some (c.toNat - 'a'.toNat + 10)
  else if 'A' ≤ c ∧ c ≤ 'F' then some (c.toNat - 'A'.toNat + 10)
  else none

/-- The number that a list of digits spells; nothing if one of them is no digit. -/
def number? (digits : List Char) : Option Nat :=
  digits.foldlM (fun n c => (value? c).map (n * 16 + ·)) 0

/-- The byte that a numeral spells: digits, with a plus in front of them or not. -/
def byte? (numeral : List Char) : Option Nat := do
  let digits := match numeral with
    | '+' :: digits => digits
    | digits => digits
  if digits.isEmpty then none
  else
    let n ← number? digits
    if n < 256 then pure n else none

/-- The lower-case digit of a value below sixteen. -/
def lower (n : Nat) : Char := if n < 10 then Char.ofNat (48 + n) else Char.ofNat (87 + n)

/-- The upper-case digit of a value below sixteen. -/
def upper (n : Nat) : Char := if n < 10 then Char.ofNat (48 + n) else Char.ofNat (55 + n)

/-- The last `width` digits of a number, by `digit`. -/
def padded (digit : Nat → Char) (width n : Nat) : List Char :=
  -- the highest place first
  (List.range width).reverse.map fun place => digit (n / 16 ^ place % 16)

/-- Two lower-case digits for each byte. -/
def ofBytes (bytes : List UInt8) : List Char := bytes.flatMap fun b => padded lower 2 b.toNat

/-- The bytes that pairs of digits spell. -/
def toBytes? : List Char → Option (List UInt8)
  | [] => some []
  | high :: low :: rest => do
    let h ← value? high
    let l ← value? low
    let bytes ← toBytes? rest
    pure (UInt8.ofNat (h * 16 + l) :: bytes)
  | [_] => none

end HomeWidget.Hex
