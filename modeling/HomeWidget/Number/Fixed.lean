import HomeWidget.Number.Binary

/-!
# Fixed places

Tables on the command line show doubles with a fixed number of decimal places. The exact value is rounded to
the nearest multiple of the last place, a half going to the even neighbour; the sign is kept, also of a
value that rounds to zero.
-/
namespace HomeWidget.Fixed

/-- The whole number nearest to a fraction, a half going to the even neighbour. -/
def divRound (numerator denominator : Nat) : Nat :=
  let whole := numerator / denominator
  let twice := 2 * (numerator % denominator)
  if twice < denominator ∨ (twice = denominator ∧ whole % 2 = 0) then whole else whole + 1

/-- A double with `places` decimal places, at least one. -/
def write (places : Nat) (x : Float) : String :=
  let b := Binary.ofFloat x
  if x.isNaN then "NaN" else
  let sign := if b.negative then "-" else ""
  if !x.isFinite then sign ++ "inf" else
  let (numerator, denominator) := b.fraction
  let n := divRound (numerator * 10 ^ places) denominator
  let fraction := Nat.toDigits 10 (n % 10 ^ places)
  -- zeros between the point and the first digit that is none
  let filled := List.replicate (places - fraction.length) '0' ++ fraction
  sign ++ toString (n / 10 ^ places) ++ "." ++ String.ofList filled

end HomeWidget.Fixed
