import HomeWidget.Number.Decimal
import HomeWidget.Text.Blank
import HomeWidget.Time.Timestamp

/-!
# Reading timestamps

The accepted form is a relaxed RFC 3339: a date, a separator (`T`, `t` or a space), a time, and an offset from UTC.
Numbers need not be padded, blanks may stand between components, a year with a sign may have any number of
digits, and a fraction may have more digits than are kept. The offset is `Z`, `UTC`, or a signed pair of hours and
minutes with or without a colon.
-/
namespace HomeWidget.Timestamp

open Text

/-! ## §1. Pieces -/

/-- A number of one to `width` digits, after any blanks. -/
def number? (width : Nat) (text : List Char) : Option (Nat × List Char) :=
  let text := trimStart text
  let ds := (text.take width).takeWhile Char.isDigit
  if ds.isEmpty then none else some (Decimal.ofDigits ds, text.drop ds.length)

/-- A number within a range. -/
def numberIn? (low high : Nat) (text : List Char) : Option (Nat × List Char) := do
  let (n, rest) ← number? 2 text
  if low ≤ n ∧ n ≤ high then pure (n, rest) else none

/-- A year: up to four digits, or a sign and any number of digits. -/
def year? (text : List Char) : Option (Int × List Char) :=
  let signed (digits : List Char) : Option (Nat × List Char) :=
    let (ds, rest) := Decimal.spanDigits digits
    if ds.isEmpty then none else some (Decimal.ofDigits ds, rest)
  match trimStart text with
  | '-' :: rest => (signed rest).map fun (n, rest) => (-(n : Int), rest)
  | '+' :: rest => (signed rest).map fun (n, rest) => ((n : Int), rest)
  -- without a sign a fifth digit is left to what follows
  | text => (number? 4 text).map fun (n, rest) => ((n : Int), rest)

/-- A mark of punctuation, after any blanks. -/
def mark? (mark : Char) (text : List Char) : Option (List Char) :=
  match trimStart text with
  | c :: rest => if c = mark then some rest else none
  | [] => none

/-- The fraction of a second in nanoseconds: a point and at least one digit, or nothing. -/
def fraction? : List Char → Option (Nat × List Char)
  | '.' :: rest =>
    let (ds, rest) := Decimal.spanDigits rest
    -- digits beyond the ninth are read and dropped
    let kept := ds.take 9
    if ds.isEmpty then none else some (Decimal.ofDigits kept * 10 ^ (9 - kept.length), rest)
  | text => some (0, text)

/-- Two digits. -/
def pair? : List Char → Option (Nat × List Char)
  | a :: b :: rest => if a.isDigit ∧ b.isDigit then some (Decimal.ofDigits [a, b], rest) else none
  | _ => none

/-- The sign of an offset: a plus, a hyphen or the minus sign U+2212. -/
def offsetSign? : List Char → Option (Int × List Char)
  | '+' :: rest => some (1, rest)
  | '-' :: rest => some (-1, rest)
  | c :: rest => if c.toNat = 0x2212 then some (-1, rest) else none
  | [] => none

/-- The offset from UTC in seconds. Hours and minutes may have colons and blanks between them. -/
def offset? (text : List Char) : Option (Int × List Char) :=
  let text := trimStart text
  if (text.take 3).map Char.toLower = ['u', 't', 'c'] then some (0, text.drop 3)
  else match text with
  | 'Z' :: rest => some (0, rest)
  | 'z' :: rest => some (0, rest)
  | text => do
    let (sign, rest) ← offsetSign? text
    let (hours, rest) ← pair? rest
    let (minutes, rest) ← pair? (rest.dropWhile fun c => c == ':' || isBlank c)
    if hours ≤ 23 ∧ minutes ≤ 59 then pure (sign * (hours * 3600 + minutes * 60 : Nat), rest) else none

/-! ## §2. The whole -/

/-- The moment that has this date and time of the day at an offset from UTC. -/
def ofLocal? (date : Calendar.Date) (second nano : Nat) (offset : Int) : Option Timestamp :=
  let seconds : Int := second - offset
  let day := date.toDays + seconds / secondsPerDay
  let year := (Calendar.Date.ofDays day).year
  if Calendar.yearRange.1 ≤ year ∧ year ≤ Calendar.yearRange.2 then
    some ⟨day, (seconds % secondsPerDay).toNat, nano⟩
  else none

/-- The moment that a text names. Second 60 is a leap second, kept in second 59. -/
def ofText? (text : List Char) : Option Timestamp := do
  let (year, rest) ← year? text
  let (month, rest) ← numberIn? 1 12 (← mark? '-' rest)
  let (day, rest) ← numberIn? 1 31 (← mark? '-' rest)
  let rest ← match rest with
    | 'T' :: rest => some rest
    | 't' :: rest => some rest
    | ' ' :: rest => some rest
    | _ => none
  let (hour, rest) ← numberIn? 0 23 rest
  let (minute, rest) ← numberIn? 0 59 (← mark? ':' rest)
  let (second, rest) ← numberIn? 0 60 (← mark? ':' rest)
  let (nano, rest) ← fraction? rest
  let (offset, rest) ← offset? rest
  -- nothing but blanks may follow the offset
  if !(trimStart rest).isEmpty then none
  else
    let date ← Calendar.Date.mk? year month day
    -- the sixtieth second has the place of the one before, and a second more of nanoseconds
    let leap := second = 60
    ofLocal? date (hour * 3600 + minute * 60 + if leap then 59 else second)
      (nano + if leap then nanosPerSecond else 0) offset

end HomeWidget.Timestamp
