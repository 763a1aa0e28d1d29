import HomeWidget.Proofs.Json.Lexer
import HomeWidget.Proofs.Number.Digits

/-!
# Numerals

Every written number is a numeral to the lexer: it begins with a digit or a minus, and goes on with characters that
continue it. A whole number of 64 bits is read from its numeral.

Main results: `lex_number`, `ofText?_whole`.
-/
namespace HomeWidget.Json

/-! ## §1. The characters of a numeral -/

/-- A digit or a minus, and then what may stand in a numeral. -/
def IsNumeral : List Char → Prop
  | [] => False
  | c :: text => (c.isDigit = true ∨ c = '-') ∧ ∀ d ∈ text, Lexer.isNumeralChar d = true

/-- A digit belongs in a numeral. -/
theorem isNumeralChar_of_isDigit {c : Char} (h : c.isDigit = true) : Lexer.isNumeralChar c = true := by
  unfold Lexer.isNumeralChar
  rw [h]
  rfl

/-- A digit opens a numeral. -/
theorem open?_digit {c : Char} (h : c.isDigit = true) : Lexer.open? c = some ([], .numeral [c]) := by
  unfold Lexer.open?
  split
  case h_12 => rw [if_pos (Or.inl h)]
  all_goals exact absurd h (by decide)

/-- A numeral is one token, if what is behind it does not go on with it. -/
theorem lex_number {text rest : List Char} {n : Number} (htext : IsNumeral text)
    (hnumber : Number.ofText? text = some n) (hrest : Ends rest) :
    lex .between (text ++ rest) = (lex .between rest).map (.scalar (number n) :: ·) := by
  cases text with
  | nil => exact htext.elim
  | cons c text =>
    obtain ⟨hc, htext⟩ := htext
    refine lex_numeral ?_ htext hnumber hrest
    rcases hc with hc | rfl
    · exact open?_digit hc
    · rfl

/-! ## §2. Whole numbers -/

/-- The digits of a number have no zero in front of others. -/
theorem isWholePart_toDigits (n : Nat) : isWholePart (Nat.toDigits 10 n) = true := by
  obtain ⟨d, ds, hds, hpos, hzero⟩ := Decimal.toDigits_eq_cons n
  rw [hds]
  unfold isWholePart
  split
  · rfl
  next hne h =>
    -- a zero in front: the number is zero, and then nothing follows
    obtain ⟨rfl, rfl⟩ := List.cons.inj h
    have hn : n = 0 := by
      by_contra hn
      exact hpos (by omega) rfl
    rw [hzero hn] at hne
    exact absurd rfl hne
  · rfl

/-- The digits of a number are a numeral. -/
theorem isNumeral_toDigits (n : Nat) : IsNumeral (Nat.toDigits 10 n) := by
  have hdigits : ∀ c ∈ Nat.toDigits 10 n, c.isDigit = true := fun c hc => Decimal.isDigit_toDigits hc
  obtain ⟨d, ds, hds, -, -⟩ := Decimal.toDigits_eq_cons n
  rw [hds] at hdigits ⊢
  exact ⟨Or.inl (hdigits d List.mem_cons_self),
    fun c hc => isNumeralChar_of_isDigit (hdigits c (List.mem_cons_of_mem _ hc))⟩

/-- A whole number is written with its sign in front, if that is a minus. -/
theorem write_whole (n : Int) :
    Number.write (.whole n) = if 0 ≤ n then Nat.toDigits 10 n.toNat else '-' :: Nat.toDigits 10 (-n).toNat := by
  show (toString n).toList = _
  rw [Int.toString_eq_repr, Int.repr_eq_if]
  by_cases hn : 0 ≤ n
  · rw [if_pos hn, if_pos hn, Nat.toList_repr]
  · rw [if_neg hn, if_neg hn, String.toList_append, Nat.toList_repr]
    rfl

/-- So a whole number is a numeral. -/
theorem isNumeral_whole (n : Int) : IsNumeral (Number.write (.whole n)) := by
  rw [write_whole]
  by_cases hn : 0 ≤ n
  · rw [if_pos hn]
    exact isNumeral_toDigits _
  · rw [if_neg hn]
    refine ⟨Or.inr rfl, fun c hc => ?_⟩
    exact isNumeralChar_of_isDigit (Decimal.isDigit_toDigits hc)

/-- The number that a text spells after its sign. -/
def Number.ofUnsigned? (negative : Bool) (text : List Char) : Option Number := do
  let (units, fraction, rest) := Decimal.takePoint text
  let exponent ← Decimal.exponentPart? rest
  if !isWholePart units ∨ fraction = some [] then none
  else
    let size := Decimal.ofDigits units
    if fraction.isNone ∧ rest.isEmpty ∧ !negative ∧ size < 2 ^ 64 then pure (.whole size)
    else if fraction.isNone ∧ rest.isEmpty ∧ negative ∧ 0 < size ∧ size ≤ 2 ^ 63 then pure (.whole (-size))
    else
      let x := (Decimal.ofParts negative units (fraction.getD []) exponent).toFloat
      if x.isFinite then pure (.double x) else none

theorem ofText?_minus (text : List Char) : Number.ofText? ('-' :: text) = Number.ofUnsigned? true text := rfl

/-- A numeral without a minus is read as it stands. -/
theorem ofText?_plain {text : List Char} (h : text.head? ≠ some '-') :
    Number.ofText? text = Number.ofUnsigned? false text := by
  unfold Number.ofText?
  split
  next negative rest heq =>
    split at heq
    next => exact absurd rfl h
    next =>
      obtain ⟨rfl, rfl⟩ := Prod.mk.inj heq
      rfl

/-- The first character of digits is no minus. -/
theorem head?_toDigits (n : Nat) : (Nat.toDigits 10 n).head? ≠ some '-' := by
  intro h
  exact absurd (Decimal.isDigit_toDigits (List.mem_of_head? h)) (by decide)

/-- Digits alone have no point. -/
theorem takePoint_toDigits (n : Nat) : Decimal.takePoint (Nat.toDigits 10 n) = (Nat.toDigits 10 n, none, []) := by
  unfold Decimal.takePoint
  rw [Decimal.spanDigits_eq_self fun c hc => Decimal.isDigit_toDigits hc]

/-- A whole number of 64 bits is read back from its digits. -/
theorem ofUnsigned?_toDigits (negative : Bool) (n : Nat) (h : if negative then 0 < n ∧ n ≤ 2 ^ 63 else n < 2 ^ 64) :
    Number.ofUnsigned? negative (Nat.toDigits 10 n) = some (.whole (if negative then -n else n)) := by
  unfold Number.ofUnsigned?
  rw [takePoint_toDigits]
  show (if !isWholePart (Nat.toDigits 10 n) ∨ none = some [] then none else _) = _
  rw [isWholePart_toDigits, Decimal.ofDigits_toDigits]
  cases negative with
  | false => simp_all
  | true => simp_all

/-- **A whole number of 64 bits is read from its numeral.** -/
theorem ofText?_whole {n : Int} (hlow : -2 ^ 63 ≤ n) (hhigh : n < 2 ^ 64) :
    Number.ofText? (Number.write (.whole n)) = some (.whole n) := by
  rw [write_whole]
  -- the bounds differ: a size up to 2 ^ 63 takes a minus, one below 2 ^ 64 none
  by_cases hn : 0 ≤ n
  · have hsize : n.toNat < 2 ^ 64 := by omega
    have hvalue : (n.toNat : Int) = n := Int.toNat_of_nonneg hn
    rw [if_pos hn, ofText?_plain (head?_toDigits _), ofUnsigned?_toDigits false _ hsize]
    show some (Number.whole (n.toNat : Int)) = _
    rw [hvalue]
  · have hsize : 0 < (-n).toNat ∧ (-n).toNat ≤ 2 ^ 63 := by omega
    have hvalue : -((-n).toNat : Int) = n := by omega
    rw [if_neg hn, ofText?_minus, ofUnsigned?_toDigits true _ hsize]
    show some (Number.whole (-((-n).toNat : Int))) = _
    rw [hvalue]

end HomeWidget.Json
