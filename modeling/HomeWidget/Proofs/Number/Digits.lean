import HomeWidget.Number.Decimal
import Mathlib.Data.List.TakeDrop

/-!
# Decimal digits read back

The digits that a number is written with spell that number again. Digits of one text after another spell the first
number moved by the length of the second; zeros in front change nothing.
-/
namespace HomeWidget.Decimal

/-- Digits are read as the library reads them. -/
theorem ofDigits_eq (ds : List Char) : ofDigits ds = Nat.ofDigitChars 10 ds 0 := by
  unfold ofDigits
  rw [Nat.ofDigitChars_eq_foldl]
  congr 1
  funext n c
  rw [Nat.mul_comm]
  rfl

/-- **The digits of a number spell it.** -/
theorem ofDigits_toDigits (n : Nat) : ofDigits (Nat.toDigits 10 n) = n := by
  rw [ofDigits_eq]
  exact Nat.ofDigitChars_toDigits (by omega) (by omega)

/-- Digits after others continue the number that these spell. -/
theorem foldl_digits (ds : List Char) (n : Nat) :
    ds.foldl (fun n c => n * 10 + (c.toNat - 48)) n = n * 10 ^ ds.length + ofDigits ds := by
  induction ds generalizing n with
  | nil => exact (Nat.mul_one n).symm
  | cons c ds ih =>
    have hzero : ofDigits (c :: ds) = (c.toNat - 48) * 10 ^ ds.length + ofDigits ds := by
      unfold ofDigits
      rw [List.foldl_cons, Nat.zero_mul, Nat.zero_add, ih]
      rfl
    -- both sides are `n * 10 ^ (length + 1)`, the first digit in its place, and the rest
    rw [List.foldl_cons, ih, hzero, List.length_cons, Nat.pow_succ, Nat.add_mul, ← Nat.add_assoc, Nat.mul_assoc,
      Nat.mul_comm 10]

/-- Digits in front count as many places more as there are digits behind. -/
theorem ofDigits_append (ds es : List Char) : ofDigits (ds ++ es) = ofDigits ds * 10 ^ es.length + ofDigits es := by
  unfold ofDigits
  rw [List.foldl_append, foldl_digits]
  rfl

/-- Zeros have no value. -/
theorem ofDigits_zeros (k : Nat) : ofDigits (List.replicate k '0') = 0 := by
  induction k with
  | zero => rfl
  | succ k ih =>
    rw [List.replicate_succ', ofDigits_append, ih]
    rfl

/-- A number is written with digits only. -/
theorem isDigit_toDigits {n : Nat} {c : Char} (h : c ∈ Nat.toDigits 10 n) : c.isDigit = true :=
  Nat.isDigit_of_mem_toDigits (by omega) (by omega) h

theorem all_isDigit_toDigits (n : Nat) : (Nat.toDigits 10 n).all Char.isDigit = true := by
  rw [List.all_eq_true]
  exact fun c hc => isDigit_toDigits hc

/-- What holds of a character holds of the first one of a text that starts with it. -/
theorem head?_of_cons {P : Char → Prop} {c : Char} (h : P c) (rest : List Char) : ∀ d ∈ (c :: rest).head?, P d := by
  intro d hd
  rw [List.head?_cons, Option.mem_some] at hd
  rw [← hd]
  exact h

/-- Zeros are digits. -/
theorem isDigit_of_mem_zeros {k : Nat} {c : Char} (h : c ∈ List.replicate k '0') : c.isDigit = true := by
  rw [List.eq_of_mem_replicate h]
  rfl

/-- The digits at the start of a text end before a character that is none. -/
theorem spanDigits_append {ds rest : List Char} (hds : ∀ c ∈ ds, c.isDigit = true)
    (hrest : ∀ c ∈ rest.head?, c.isDigit = false) : spanDigits (ds ++ rest) = (ds, rest) := by
  unfold spanDigits
  rw [List.span_eq_takeWhile_dropWhile, List.takeWhile_append_of_pos hds, List.dropWhile_append_of_pos hds]
  cases rest with
  | nil => simp
  | cons c rest =>
    have hc : ¬c.isDigit = true := by
      rw [hrest c rfl]
      exact Bool.noConfusion
    rw [List.takeWhile_cons_of_neg hc, List.dropWhile_cons_of_neg hc, List.append_nil]

theorem spanDigits_eq_self {ds : List Char} (hds : ∀ c ∈ ds, c.isDigit = true) : spanDigits ds = (ds, []) := by
  have h := @spanDigits_append ds [] hds (fun c hc => by cases hc)
  rw [List.append_nil] at h
  exact h

/-- The digits of a number start with a zero only if it is zero. -/
theorem toDigits_eq_cons (n : Nat) : ∃ d ds, Nat.toDigits 10 n = d :: ds ∧ (0 < n → d ≠ '0') ∧ (n = 0 → ds = []) := by
  induction n using Nat.strongRecOn with
  | ind n ih =>
    by_cases hn : n < 10
    · refine ⟨n.digitChar, [], Nat.toDigits_of_lt_base hn, ?_, fun _ => rfl⟩
      have known : ∀ m < 10, 0 < m → m.digitChar ≠ '0' := by decide
      exact known n hn
    · -- the first digit of a longer number is that of its tenth
      obtain ⟨d, ds, hds, hd, -⟩ := ih (n / 10) (by omega)
      refine ⟨d, ds ++ [(n % 10).digitChar], ?_, fun _ => hd (by omega), by omega⟩
      rw [Nat.toDigits_of_base_le (by omega) (by omega), hds]
      rfl

end HomeWidget.Decimal
