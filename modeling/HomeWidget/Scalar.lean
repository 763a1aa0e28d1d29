import HomeWidget.Number.Binary

/-!
# Scalars

Lengths, positions, angles and colour channels are scalars. Geometry, paint, layout, rasterising and paging
are written once over `Scalar`: on the screen it is a double (`Float`), where sums round and a value may
be infinite or not a number; in the theory it is a rational (`Rat`) or, where there are tangents, a real, and
arithmetic is exact.

The operations below are the few that both share. What is derived from them (`least`, `greatest`, `clamp`,
`round`, `roundEven`) keeps the conventions of doubles: a value that is not a number gives way to the other
argument of `least` and `greatest`, and passes through `clamp`.
-/
namespace HomeWidget

/-- Numbers to measure and to paint with. -/
class Scalar (α : Type) extends Add α, Sub α, Mul α, Div α, Neg α, LT α, LE α, OfScientific α where
  decidableLT : DecidableLT α
  decidableLE : DecidableLE α
  /-- The scalar of a count. -/
  ofNat : Nat → α
  /-- Neither infinite nor undefined. -/
  isFinite : α → Bool
  /-- The greatest whole scalar that is not above the argument. -/
  floor : α → α
  /-- The whole part as a count; `0` for what is negative or not a number. -/
  toNat : α → Nat
  /-- The remainder of division with the quotient rounded toward zero. -/
  remainder : α → α → α

namespace Scalar

instance {α : Type} [s : Scalar α] : DecidableLT α := s.decidableLT

instance {α : Type} [s : Scalar α] : DecidableLE α := s.decidableLE

instance : Scalar Float where
  decidableLT := inferInstance
  decidableLE := inferInstance
  ofNat := Float.ofNat
  isFinite := Float.isFinite
  floor := Float.wholeBelow
  toNat x := x.toUInt64.toNat
  remainder := Float.remainder

instance : Scalar Rat where
  decidableLT := inferInstance
  decidableLE := inferInstance
  ofNat n := n
  isFinite _ := true
  floor x := x.floor
  toNat x := x.floor.toNat
  remainder x y :=
    let q := x / y
    x - y * (if q < 0 then -((-q).floor : Rat) else (q.floor : Rat))

variable {α : Type} [Scalar α]

/-- The smaller of two scalars; on a tie the first, and of two of which one is not a number the other. -/
@[specialize] def least (a b : α) : α :=
  if b < a ∨ ¬ a ≤ a then b else a

/-- The larger of two scalars; on a tie the first, and of two of which one is not a number the other. -/
@[specialize] def greatest (a b : α) : α :=
  if a < b ∨ ¬ a ≤ a then b else a

/-- The nearest scalar within `[low, high]`; what is not a number stays so. -/
@[specialize] def clamp (low high x : α) : α :=
  let x := if x < low then low else x
  if high < x then high else x

/-- The nearest scalar within `[0, 1]`. -/
@[specialize] def clampUnit (x : α) : α := clamp 0.0 1.0 x

/-- The size of a scalar, without its sign. -/
@[specialize] def abs (x : α) : α := if x < 0.0 then -x else x

/-- The least whole scalar that is not below the argument. -/
@[specialize] def ceil (x : α) : α := -floor (-x)

/-- Rounds the size of a scalar by `f` and keeps its sign. -/
@[specialize] def onSize (f : α → α) (x : α) : α := if x < 0.0 then -f (-x) else f x

/-- The nearest whole scalar, a half going away from zero. The fraction is exact, so no tie is missed. -/
@[specialize] def round (x : α) : α :=
  onSize (fun x =>
    let whole := floor x
    if (0.5 : α) ≤ x - whole then whole + 1.0 else whole) x

/-- A whole scalar that is twice a whole scalar. -/
@[specialize] def isEven (whole : α) : Bool :=
  let half := floor (whole / 2.0)
  decide (whole ≤ half + half)

/-- The nearest whole scalar, a half going to the even neighbour. -/
@[specialize] def roundEven (x : α) : α :=
  onSize (fun x =>
    let whole := floor x
    let part := x - whole
    if (0.5 : α) < part then whole + 1.0
    else if part < 0.5 then whole
    -- a half
    else if isEven whole then whole else whole + 1.0) x

/-- Equal as numbers: both zeros are. -/
@[specialize] def isZero (x : α) : Bool := decide (x ≤ 0.0 ∧ (0.0 : α) ≤ x)

/-- The sum of a list, from the left. -/
@[specialize] def sum (xs : List α) : α := xs.foldl (· + ·) 0.0

end Scalar
end HomeWidget
