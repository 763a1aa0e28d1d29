import HomeWidget.Time.Calendar

/-!
# Timestamps

A moment in UTC, to the nanosecond. A leap second is kept apart from the second that follows it: its
nanoseconds run on from one thousand million. Timestamps are written as `2024-03-01T12:30:00Z`, with a fraction of
three, six or nine digits only if the moment needs one, and with a sign if the year has not four digits.
-/
namespace HomeWidget

/-- A moment in UTC. -/
structure Timestamp where
  /-- Days since 1970-01-01. -/
  day : Int
  /-- Seconds since midnight. -/
  second : Nat
  /-- Nanoseconds since the second began; from one thousand million on within a leap second. -/
  nano : Nat
  deriving Repr, DecidableEq

namespace Timestamp

/-- Nanoseconds in a second. -/
def nanosPerSecond : Nat := 1000000000

/-- Seconds in a day. -/
def secondsPerDay : Nat := 86400

/-- The moment that lies so many milliseconds after 1970-01-01. -/
def ofMillis (millis : Int) : Timestamp :=
  let seconds := millis / 1000
  { day := seconds / secondsPerDay, second := (seconds % secondsPerDay).toNat,
    nano := (millis % 1000).toNat * 1000000 }

/-- The moment so many milliseconds later. -/
def addMillis (t : Timestamp) (millis : Int) : Timestamp :=
  let nanos : Int := t.nano + millis % 1000 * 1000000
  let seconds : Int := t.second + millis / 1000 + nanos / nanosPerSecond
  { day := t.day + seconds / secondsPerDay, second := (seconds % secondsPerDay).toNat,
    nano := (nanos % nanosPerSecond).toNat }

/-! ## Writing -/

/-- A number in decimal with zeros before it up to a width. -/
def padded (width n : Nat) : String :=
  let ds := Nat.toDigits 10 n
  String.ofList (List.replicate (width - ds.length) '0' ++ ds)

/-- A year: four digits, or a sign and at least four. -/
def writeYear (year : Int) : String :=
  if 0 ≤ year ∧ year ≤ 9999 then padded 4 year.natAbs
  else (if year < 0 then "-" else "+") ++ padded 4 year.natAbs

/-- A fraction of a second with the least of no, three, six and nine digits that is exact. -/
def writeFraction (nano : Nat) : String :=
  if nano = 0 then ""
  else if nano % 1000000 = 0 then "." ++ padded 3 (nano / 1000000)
  else if nano % 1000 = 0 then "." ++ padded 6 (nano / 1000)
  else "." ++ padded 9 nano

/-- The written form of a moment. -/
def write (t : Timestamp) : String :=
  let date := Calendar.Date.ofDays t.day
  -- a leap second is written as the sixtieth of its minute
  let leap := nanosPerSecond ≤ t.nano
  let second := t.second % 60 + (if leap then 1 else 0)
  let nano := if leap then t.nano - nanosPerSecond else t.nano
  writeYear date.year ++ "-" ++ padded 2 date.month ++ "-" ++ padded 2 date.day ++ "T" ++
    padded 2 (t.second / 3600) ++ ":" ++ padded 2 (t.second / 60 % 60) ++ ":" ++ padded 2 second ++
    writeFraction nano ++ "Z"

end Timestamp
end HomeWidget
