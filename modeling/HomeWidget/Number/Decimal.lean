import HomeWidget.Number.Power
import HomeWidget.Scalar

/-!
# Decimal numerals

A numeral is read in two steps: its text gives a `Decimal`, `± digits · 10 ^ exponent`, which is exact, and a
decimal is then turned into the nearest scalar. Two grammars share the first step: the plain one (angles of
gradients, distances on the command line), where digits may be missing on one side of the point, and the
strict one of JSON, where they may not.
-/
namespace HomeWidget

/-- A decimal number, `± digits · 10 ^ exponent`. -/
structure Decimal where
  negative : Bool
  digits : Nat
  exponent : Int
  deriving Repr, DecidableEq

namespace Decimal

/-! ## §1. Values -/

/-- How many decimal digits a number has; `0` has one. -/
def countDigits (n : Nat) : Nat := (Nat.toDigits 10 n).length

/--
The nearest double. Beyond the range of doubles the power of ten is never formed: a decimal from `10 ^ 310` up is
infinite, and one below `10 ^ -330` is zero.
-/
def toFloat (d : Decimal) : Float :=
  -- the place of the leading digit tells the range without any power being formed
  let magnitude := d.exponent + countDigits d.digits
  let size : Float :=
    if d.digits = 0 ∨ magnitude < -330 then 0.0
    else if 310 < magnitude then 1.0 / 0.0
    else match d.exponent with
      | .ofNat e => Float.ofScientific d.digits false e
      | .negSucc e => Float.ofScientific d.digits true (e + 1)
  if d.negative then -size else size

/-- The exact rational. -/
def toRat (d : Decimal) : Rat :=
  let size : Rat :=
    match d.exponent with
    | .ofNat e => (d.digits * 10 ^ e : Nat)
    | .negSucc e => mkRat d.digits (10 ^ (e + 1))
  if d.negative then -size else size

/-! ## §2. Reading -/

/-- The number that a list of digits spells. -/
def ofDigits (ds : List Char) : Nat := ds.foldl (fun n c => n * 10 + (c.toNat - 48)) 0

/-- The digits at the start of a text, and the rest. -/
def spanDigits (cs : List Char) : List Char × List Char := cs.span Char.isDigit

/-- An optional sign at the start of a text: whether it is a minus, and the rest. -/
def takeSign : List Char → Bool × List Char
  | '-' :: rest => (true, rest)
  | '+' :: rest => (false, rest)
  | cs => (false, cs)

/-- A whole text that is a possibly empty exponent: nothing, or `e` and a signed number. -/
def exponentPart? : List Char → Option Int
  | [] => some 0
  | e :: rest =>
    if e = 'e' ∨ e = 'E' then
      let (negative, ds) := takeSign rest
      if ds.isEmpty ∨ !ds.all Char.isDigit then none
      else some (if negative then -(ofDigits ds : Int) else ofDigits ds)
    else none

/-- The digits before and after the point, and what follows them. No point is no digit after it. -/
def takePoint (cs : List Char) : List Char × Option (List Char) × List Char :=
  let (whole, rest) := spanDigits cs
  match rest with
  -- a point is taken even if no digit follows it; the grammars judge that
  | '.' :: rest =>
    let (fraction, rest) := spanDigits rest
    (whole, some fraction, rest)
  | rest => (whole, none, rest)

/-- The decimal with these digits before and after the point, and this power of ten. -/
def ofParts (negative : Bool) (whole fraction : List Char) (exponent : Int) : Decimal :=
  ⟨negative, ofDigits (whole ++ fraction), exponent - fraction.length⟩

/-- A plain numeral: an optional sign, digits with an optional point among or beside them, an optional exponent. -/
def ofPlain? (text : List Char) : Option Decimal :=
  let (negative, rest) := takeSign text
  let (whole, fraction, rest) := takePoint rest
  let fraction := fraction.getD []
  if whole.isEmpty ∧ fraction.isEmpty then none
  else (exponentPart? rest).map (ofParts negative whole fraction)

end Decimal

/--
The double that a plain text names: a plain numeral, or one of the words `inf`, `infinity` and `nan` in any case,
with an optional sign.
-/
def Float.ofPlain? (text : List Char) : Option Float :=
  let (negative, word) := Decimal.takeSign text
  let word := String.ofList (word.map Char.toLower)
  let signed (x : Float) : Float := if negative then -x else x
  if word = "inf" ∨ word = "infinity" then some (signed (1.0 / 0.0))
  else if word = "nan" then some (0.0 / 0.0)
  else (Decimal.ofPlain? text).map Decimal.toFloat

end HomeWidget
