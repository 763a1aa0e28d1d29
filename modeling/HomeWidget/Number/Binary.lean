import HomeWidget.Number.Power

/-!
# Binary doubles

A finite double is `± mantissa · 2 ^ exponent`, with a mantissa below `2 ^ 53`. `Binary.ofFloat` reads
this form off the bits, so that what is exact about doubles (their remainders, the whole doubles below them, their
decimal expansions, their shortest numerals) can be computed in natural numbers instead of in rounded steps.

The form is the one with the least exponent: no normalisation is done, and zero has mantissa `0`.
-/
namespace HomeWidget

/-- A finite double, taken apart: `± mantissa · 2 ^ exponent`. -/
structure Binary where
  negative : Bool
  mantissa : Nat
  exponent : Int
  deriving Repr, DecidableEq

namespace Binary

/-- The parts of a finite double. Subnormal doubles have no hidden bit and the least exponent. -/
def ofFloat (x : Float) : Binary :=
  let bits := x.toBits.toNat
  let fraction := bits % 2 ^ 52
  let biased := bits / 2 ^ 52 % 2 ^ 11
  let negative := bits / 2 ^ 63 = 1
  -- the hidden bit stands in front of the fraction of all but the subnormal doubles
  if biased = 0 then ⟨negative, fraction, -1074⟩
  else ⟨negative, fraction + 2 ^ 52, Int.ofNat biased - 1075⟩

/-- The double with the given parts; exact when the mantissa is below `2 ^ 53` and the exponent in range. -/
def toFloat (b : Binary) : Float :=
  let size := (Float.ofNat b.mantissa).scaleB b.exponent
  if b.negative then -size else size

/-- The size `mantissa · 2 ^ exponent` as a fraction of natural numbers. -/
def fraction (b : Binary) : Nat × Nat :=
  match b.exponent with
  | .ofNat e => (b.mantissa * 2 ^ e, 1)
  | .negSucc e => (b.mantissa, 2 ^ (e + 1))

/--
The remainder of `x` on division by `y`, with the sign of `x`. Both sizes are multiples of the smaller of the
two powers of two; the remainder is such a multiple too, and small enough for a mantissa, so it is exact.
-/
def remainder (x y : Binary) : Binary :=
  let e := min x.exponent y.exponent
  let units (b : Binary) : Nat := b.mantissa * 2 ^ (b.exponent - e).toNat
  ⟨x.negative, units x % units y, e⟩

end Binary

/--
The remainder of division with a quotient rounded toward zero: `x - y · trunc (x / y)`, exact. It is not a number
when `x` is not finite or `y` is zero, and `x` itself when `y` is infinite.
-/
def Float.remainder (x y : Float) : Float :=
  if !x.isFinite || y.isNaN || y == 0.0 then 0.0 / 0.0
  else if !y.isFinite then x
  else ((Binary.ofFloat x).remainder (Binary.ofFloat y)).toFloat

/--
The greatest whole double that is not above `x`, exact. A double whose last place is not behind the point is whole, and
what is not finite stays as it is.
-/
def Float.wholeBelow (x : Float) : Float :=
  let b := Binary.ofFloat x
  match b.exponent with
  | .ofNat _ => x
  | .negSucc e =>
    let places := 2 ^ (e + 1)
    -- below zero the size is rounded up
    if b.negative then -Float.ofNat ((b.mantissa + (places - 1)) / places) else Float.ofNat (b.mantissa / places)

end HomeWidget
