import HomeWidget.Number.Power
import HomeWidget.Text.Utf8

/-!
# Base 64

Credentials travel as text: three bytes become four digits of base sixty-four, and a last group of one or
two bytes is filled up with `=`.
-/
namespace HomeWidget.Base64

/-- The digit of a value below sixty-four. -/
def digit (n : Nat) : Char :=
  if n < 26 then Char.ofNat (65 + n)
  else if n < 52 then Char.ofNat (71 + n)
  else if n < 62 then Char.ofNat (n - 4)
  else if n = 62 then '+' else '/'

/-- The first `count` of the four digits of a 24-bit group. -/
def digits (group count : Nat) : List Char :=
  ([group / 2 ^ 18, group / 2 ^ 12, group / 2 ^ 6, group].take count).map fun n => digit (n % 64)

/-- The written form of a sequence of bytes. -/
def encode : Bytes → List Char
  | a :: b :: c :: rest => digits (a.toNat * 2 ^ 16 + b.toNat * 2 ^ 8 + c.toNat) 4 ++ encode rest
  | [a, b] => digits (a.toNat * 2 ^ 16 + b.toNat * 2 ^ 8) 3 ++ ['=']
  | [a] => digits (a.toNat * 2 ^ 16) 2 ++ ['=', '=']
  | [] => []

end HomeWidget.Base64
