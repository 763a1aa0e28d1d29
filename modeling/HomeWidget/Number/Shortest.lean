import HomeWidget.Number.Binary

/-!
# Shortest numerals

A double is written with the fewest decimal digits that read back as the same double, and among numerals of that
length with the one nearest to it.

All reals between the midpoints to the two neighbouring doubles read back as the double in question, the midpoints
themselves exactly when its mantissa is even. For one digit, two digits, and so on, the decimal grid of that many
digits has two points next to the double; the first grid with a point in the interval gives the digits, since
if any point of a grid lies there, one of these two does. Seventeen digits always suffice.
-/
namespace HomeWidget.Shortest

/-! ## §1. The interval -/

/-- A positive double as a fraction over a common denominator, with the interval of reals that read back as it. -/
structure Target where
  value : Nat
  low : Nat
  high : Nat
  denominator : Nat
  closed : Bool

/-- The target of a double that is not zero. Below a power of two the neighbour is twice as near. -/
def Target.ofBinary (b : Binary) : Target :=
  let m := b.mantissa
  let atPower := m = 2 ^ 52 ∧ b.exponent ≠ -1074
  -- in quarters of a place, of which the midpoints are whole multiples
  let quarters := 4 * m
  let low := if atPower then quarters - 1 else quarters - 2
  let scale := (b.exponent - 2).toNat
  let denominator := 2 ^ (2 - b.exponent).toNat
  { value := quarters * 2 ^ scale, low := low * 2 ^ scale, high := (quarters + 2) * 2 ^ scale,
    denominator := denominator, closed := m % 2 = 0 }

/-! ## §2. Grids -/

/-- `n · 10 ^ k` and a fraction over `denominator`, brought to a common denominator. -/
def onCommon (n : Nat) (k : Int) (numerator denominator : Nat) : Nat × Nat :=
  (n * 10 ^ k.toNat * denominator, numerator * 10 ^ (-k).toNat)

/-- Does `n · 10 ^ k` read back as the target? -/
def Target.contains (t : Target) (n : Nat) (k : Int) : Bool :=
  let (x, low) := onCommon n k t.low t.denominator
  let (_, high) := onCommon n k t.high t.denominator
  if t.closed then low ≤ x && x ≤ high else low < x && x < high

/-- The exponent of the leading digit: `10 ^ e ≤ value < 10 ^ (e + 1)`. -/
def Target.leading (t : Target) : Int :=
  let bits : Int := (t.value.log2 : Int) - t.denominator.log2
  -- 30103 / 100000 is the logarithm of two to the base ten, so that the guess is off by one at most
  let guess := bits * 30103 / 100000
  let reaches (e : Int) : Bool :=
    let (power, value) := onCommon 1 e t.value t.denominator
    power ≤ value
  if reaches (guess + 1) then guess + 1 else if reaches guess then guess else guess - 1

/-- The better of the two points next to the target on the grid of multiples of `10 ^ k`, if one reads back. -/
def Target.onGrid? (t : Target) (k : Int) : Option Nat :=
  let (unit, value) := onCommon 1 k t.value t.denominator
  let below := value / unit
  let twice := 2 * (value % unit)
  match t.contains below k, t.contains (below + 1) k with
  -- both read back: the nearer one, of two as near the even one
  | true, true => some (if twice < unit ∨ (twice = unit ∧ below % 2 = 0) then below else below + 1)
  | true, false => some below
  | false, true => some (below + 1)
  | false, false => none

/-- A number without the zeros at its end, and how many there were; `n` bounds their count. -/
def dropZeros : Nat → Nat → Nat × Nat
  | 0, n => (n, 0)
  | bound + 1, n =>
    if n % 10 = 0 ∧ n ≠ 0 then
      let (digits, zeros) := dropZeros bound (n / 10)
      (digits, zeros + 1)
    else (n, 0)

/-! ## §3. Digits -/

/-- The shortest digits `n` and the power of ten `k` with `n · 10 ^ k` reading back as a positive double. -/
def digits (b : Binary) : Nat × Int :=
  let t := Target.ofBinary b
  let leading := t.leading
  let grid (count : Nat) : Int := leading - count + 1
  match (List.range' 1 17).findSome? fun count => (t.onGrid? (grid count)).map (·, grid count) with
  | some (n, k) =>
    let (n, zeros) := dropZeros 20 n
    (n, k + zeros)
  | none => (b.mantissa, b.exponent)

/-- When a numeral is positional: the exponents of the leading digit, first and last. -/
def positional : Int × Int := (-5, 15)

/--
A finite double as a numeral. It always shows that it is no count: by a point, or by an exponent. Between the
exponents of `positional` it is written with a point and a digit on both sides of it, else with one digit before
the point and a signed exponent.
-/
def write (x : Float) : List Char :=
  let b := Binary.ofFloat x
  let sign := if b.negative then ['-'] else []
  -- zero has no leading digit, and keeps its sign
  if b.mantissa = 0 then sign ++ ['0', '.', '0'] else
  let (n, k) := digits b
  let ds := Nat.toDigits 10 n
  let leading := k + ds.length - 1
  sign ++
  if positional.1 ≤ leading ∧ leading ≤ positional.2 then
    if 0 ≤ k then ds ++ List.replicate k.toNat '0' ++ ['.', '0']
    else if 0 ≤ leading then
      let whole := (leading + 1).toNat
      ds.take whole ++ '.' :: ds.drop whole
    else '0' :: '.' :: List.replicate (-leading - 1).toNat '0' ++ ds
  else
    let fraction := match ds.drop 1 with
      | [] => []
      | rest => '.' :: rest
    let mark := if leading < 0 then ['e', '-'] else ['e', '+']
    ds.take 1 ++ fraction ++ mark ++ Nat.toDigits 10 leading.natAbs

end HomeWidget.Shortest
