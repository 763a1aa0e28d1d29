import HomeWidget.Number.Binary
import Mathlib

/-!
# Rounding to a double

A rounding step is given a mantissa and what it left out: nothing, less than half a place, half a place, or more. This
is enough to tell the exact value apart from its neighbours at every coarser place, since shifts keep it. A value
between the midpoints around a double, or on one of them when the mantissa of the double is even, is then rounded to
that double.

Main results: `keeps_shiftRight`, `roundedMantissa_eq`, `roundWithAccuracy_eq`.
-/
namespace HomeWidget

/-! ## §1. Doubles and the values that round to them -/

namespace Binary

/-- The mantissa and exponent are those of a positive double: 53 bits, the first of them set unless the exponent is the
least one. -/
structure Regular (b : Binary) : Prop where
  pos : 0 < b.mantissa
  lt : b.mantissa < 2 ^ 53
  low : -1074 ≤ b.exponent
  high : b.exponent ≤ 971
  full : b.exponent = -1074 ∨ 2 ^ 52 ≤ b.mantissa

/-- The size of a double. -/
def size (b : Binary) : ℚ := b.mantissa * 2 ^ b.exponent

/-- How far below a double the midpoint to its neighbour lies, in places of its mantissa. -/
def lowGap (b : Binary) : ℚ := if b.mantissa = 2 ^ 52 ∧ b.exponent ≠ -1074 then 1 / 4 else 1 / 2

/-- The value, in places of the mantissa of `b`, lies between the midpoints around `b`, or on one of them if the
mantissa is even. -/
structure Covers (b : Binary) (y : ℚ) : Prop where
  low : b.mantissa - b.lowGap ≤ y
  high : y ≤ b.mantissa + 1 / 2
  tie : y = b.mantissa - b.lowGap ∨ y = b.mantissa + 1 / 2 → b.mantissa % 2 = 0

/-- Below a double the gap is half a place, or a quarter of one. -/
theorem lowGap_le (b : Binary) : b.lowGap ≤ 1 / 2 := by
  unfold lowGap
  split <;> norm_num

/-- There is a gap below every double. -/
theorem lowGap_pos (b : Binary) : 0 < b.lowGap := by
  unfold lowGap
  split <;> norm_num

/-- A double covers itself. -/
theorem covers_self (b : Binary) : b.Covers b.mantissa where
  low := by linarith [b.lowGap_pos]
  high := by linarith
  tie := by
    intro h
    rcases h with h | h
    · linarith [b.lowGap_pos]
    · linarith

end Binary

namespace Rounding

open Float.Model UnpackedFloat

/-! ## §2. What a mantissa keeps -/

/-- The mantissa and its two residual bits are those of the exact value `y`, counted in places of the mantissa. -/
def Keeps (em : ExtendedMantissa) (y : ℚ) : Prop :=
  match em.roundBit, em.stickyBit with
  | false, false => y = em.mantissa
  | false, true => em.mantissa < y ∧ y < em.mantissa + 1 / 2
  | true, false => y = em.mantissa + 1 / 2
  | true, true => em.mantissa + 1 / 2 < y ∧ y < em.mantissa + 1

theorem keeps_exact (m : ℕ) : Keeps (.ofMantissaAndAccuracy m .exact) m := rfl

/-- What is kept is the whole part. -/
theorem keeps_floor {em : ExtendedMantissa} {y : ℚ} (h : Keeps em y) : em.mantissa ≤ y ∧ y < em.mantissa + 1 := by
  obtain ⟨m, r, s⟩ := em
  cases r <;> cases s <;> simp only [Keeps] at h ⊢ <;> constructor <;> linarith

/-- One place less keeps half the value. -/
theorem keeps_shiftRightOne {em : ExtendedMantissa} {y : ℚ} (h : Keeps em y) : Keeps em.shiftRightOne (y / 2) := by
  obtain ⟨m, r, s⟩ := em
  -- the last bit becomes the round bit, and the old round bit joins the sticky one
  have hsplit : (m : ℚ) = 2 * (m / 2 : ℕ) + (m % 2 : ℕ) := by exact_mod_cast (Nat.div_add_mod m 2).symm
  rcases Nat.mod_two_eq_zero_or_one m with hm | hm
  · rw [hm, Nat.cast_zero] at hsplit
    cases r <;> cases s <;> simp only [Keeps, ExtendedMantissa.shiftRightOne, hm, bne_self_eq_false, Bool.or_false,
      Bool.or_true] at h ⊢ <;> (try constructor) <;> linarith
  · rw [hm, Nat.cast_one] at hsplit
    have hbit : ((1 : ℕ) != 0) = true := rfl
    cases r <;> cases s <;> simp only [Keeps, ExtendedMantissa.shiftRightOne, hm, hbit, Bool.or_false,
      Bool.or_true] at h ⊢ <;> (try constructor) <;> linarith

/-- A shift to the right divides, and keeps track of what is lost. -/
theorem keeps_shiftRight {em : ExtendedMantissa} {y : ℚ} (h : Keeps em y) (n : ℕ) : Keeps (em >>> n) (y / 2 ^ n) := by
  induction n with
  | zero =>
    rw [pow_zero, div_one]
    exact h
  | succ n ih =>
    rw [pow_succ, ← div_div]
    exact keeps_shiftRightOne ih

/-- **The rounded mantissa is the nearest whole number**, a half going to the even one. -/
theorem roundedMantissa_eq {em : ExtendedMantissa} {y : ℚ} (h : Keeps em y) {m : ℕ} (hlow : m - 1 / 2 ≤ y)
    (hhigh : y ≤ m + 1 / 2) (htie : y = m - 1 / 2 ∨ y = m + 1 / 2 → m % 2 = 0) : em.roundedMantissa = m := by
  obtain ⟨a, r, s⟩ := em
  cases r <;> cases s <;> simp only [Keeps] at h
  case false.false =>
    have h1 : (m : ℚ) < a + 1 := by linarith
    have h2 : (a : ℚ) < m + 1 := by linarith
    norm_cast at h1 h2
    show a = m
    omega
  case false.true =>
    have h1 : (m : ℚ) < a + 1 := by linarith
    have h2 : (a : ℚ) < m + 1 := by linarith
    norm_cast at h1 h2
    show a = m
    omega
  case true.false =>
    -- the value is a half: both neighbours are as near, and only the even one satisfies `htie`
    have h1 : (m : ℚ) ≤ a + 1 := by linarith
    have h2 : (a : ℚ) ≤ m := by linarith
    norm_cast at h1 h2
    have heven : m % 2 = 0 := by
      apply htie
      rcases (show m = a ∨ m = a + 1 by omega) with rfl | rfl
      · exact Or.inr h
      · left
        push_cast
        linarith
    show a + a % 2 = m
    omega
  case true.true =>
    have h1 : (m : ℚ) < a + 2 := by linarith
    have h2 : (a : ℚ) < m := by linarith
    norm_cast at h1 h2
    show a + 1 = m
    omega

/-! ## §3. The place to round at -/

/-- A result has 53 bits unless that takes its exponent below the least. -/
theorem targetExponent_eq (total : ℤ) : Format.binary64.targetExponent total = max (total - 53) (-1074) := rfl

/-- A mantissa is shifted to the exponent of the result, if that is the larger one. -/
theorem shiftToTarget_def (m : ℕ) (e : ℤ) (acc : Accuracy) :
    shiftToTargetExponent .binary64 m e acc
      = (ExtendedMantissa.ofMantissaAndAccuracy m acc >>>
          (Format.binary64.targetExponent (totalExponent m e) - e).toNat,
        e + ((Format.binary64.targetExponent (totalExponent m e) - e).toNat : ℤ)) := rfl

/-- A mantissa below 53 bits is not shifted again. -/
theorem shiftToTarget_of_lt {m : ℕ} {e : ℤ} (hm : m < 2 ^ 53) (he : -1074 ≤ e) :
    shiftToTargetExponent .binary64 m e .exact = (⟨m, false, false⟩, e) := by
  have hlog : m.log2 ≤ 52 := by
    by_cases h : m = 0
    · rw [h]
      decide
    · exact Nat.lt_succ_iff.1 ((Nat.log2_lt h).2 hm)
  have htarget : (Format.binary64.targetExponent (totalExponent m e) - e).toNat = 0 := by
    rw [targetExponent_eq]
    unfold totalExponent
    omega
  rw [shiftToTarget_def, htarget, Nat.cast_zero, add_zero]
  rfl

/-- A mantissa that rounding carried to 54 bits is halved. -/
theorem shiftToTarget_carry {e : ℤ} (he : -1074 ≤ e) :
    shiftToTargetExponent .binary64 (2 ^ 53) e .exact = (⟨2 ^ 52, false, false⟩, e + 1) := by
  have htarget : (Format.binary64.targetExponent (totalExponent (2 ^ 53) e) - e).toNat = 1 := by
    rw [targetExponent_eq]
    unfold totalExponent
    rw [Nat.log2_two_pow]
    omega
  rw [shiftToTarget_def, htarget]
  rfl

/-- Where the first shift ends, if the mantissa was fine enough to begin with. -/
theorem shiftToTarget_eq {m : ℕ} {e t : ℤ} (acc : Accuracy)
    (ht : Format.binary64.targetExponent (totalExponent m e) = t) (he : e ≤ t) :
    shiftToTargetExponent .binary64 m e acc
      = (ExtendedMantissa.ofMantissaAndAccuracy m acc >>> (t - e).toNat, t) := by
  have hexp : e + ((t - e).toNat : ℤ) = t := by omega
  rw [shiftToTarget_def, ht, hexp]

/-- What is kept in places of one exponent is, after the shift, kept in places of the other. -/
theorem keeps_shift {em : ExtendedMantissa} {v : ℚ} {e t : ℤ} (h : Keeps em (v / 2 ^ e)) (he : e ≤ t) :
    Keeps (em >>> (t - e).toNat) (v / 2 ^ t) := by
  have hexp : ((t - e).toNat : ℤ) = t - e := by omega
  have hpow : (2 : ℚ) ^ t = 2 ^ e * 2 ^ (t - e).toNat := by
    rw [← zpow_natCast, hexp, ← zpow_add₀ two_ne_zero, add_sub_cancel]
  rw [hpow, ← div_div]
  exact keeps_shiftRight h _

/-! ## §4. The rounded double -/

/-- If rounding leaves 53 bits, they are the result. -/
theorem roundWithAccuracy_of_lt {s : Sign} {m r : ℕ} {e t : ℤ} {acc : Accuracy} {em : ExtendedMantissa}
    (hshift : shiftToTargetExponent .binary64 m e acc = (em, t)) (hr : em.roundedMantissa = r) (hlt : r < 2 ^ 53)
    (hpos : 0 < r) (ht : -1074 ≤ t) : roundWithAccuracy .binary64 s m e acc = .finite s r t hpos := by
  unfold roundWithAccuracy
  rw [hshift]
  dsimp only
  rw [hr, shiftToTarget_of_lt hlt ht]
  exact dif_neg hpos.ne'

/-- If rounding carries into another bit, the exponent is one more. -/
theorem roundWithAccuracy_of_carry {s : Sign} {m : ℕ} {e t : ℤ} {acc : Accuracy} {em : ExtendedMantissa}
    (hshift : shiftToTargetExponent .binary64 m e acc = (em, t)) (hr : em.roundedMantissa = 2 ^ 53) (ht : -1074 ≤ t) :
    roundWithAccuracy .binary64 s m e acc = .finite s (2 ^ 52) (t + 1) (by decide) := by
  unfold roundWithAccuracy
  rw [hshift]
  dsimp only
  rw [hr, shiftToTarget_carry ht]
  rfl

/-- The exponent that a mantissa is shifted to is that of the binade of the exact value. -/
theorem targetExponent_of_bounds {m : ℕ} {e t : ℤ} {v : ℚ} (hlow : m ≤ v / 2 ^ e) (hhigh : v / 2 ^ e < m + 1)
    (he : e ≤ Format.binary64.targetExponent (totalExponent m e)) (ht : -1074 ≤ t)
    (hbelow : v < 2 ^ (t + 53)) (habove : t = -1074 ∨ 2 ^ (t + 52) ≤ v) :
    Format.binary64.targetExponent (totalExponent m e) = t := by
  have hpos : (0 : ℚ) < 2 ^ e := zpow_pos two_pos e
  rw [le_div_iff₀ hpos] at hlow
  rw [div_lt_iff₀ hpos] at hhigh
  rw [targetExponent_eq] at he ⊢
  unfold totalExponent at he ⊢
  by_cases hm : m = 0
  · -- nothing is left of the value: it lies below the last place of the smallest doubles
    subst hm
    rw [Nat.log2_zero] at he ⊢
    rcases habove with rfl | habove
    · omega
    · have hlt : (2 : ℚ) ^ (t + 52) < 2 ^ e := by
        have h1 := habove.trans_lt hhigh
        rwa [Nat.cast_zero, zero_add, one_mul] at h1
      have := (zpow_lt_zpow_iff_right₀ one_lt_two).1 hlt
      omega
  · -- the first bit of the mantissa tells the binade of the value, which the bounds tell too
    have hlog : (2 : ℚ) ^ ((m.log2 : ℤ) + e) ≤ v := by
      refine le_trans ?_ hlow
      rw [zpow_add₀ two_ne_zero, zpow_natCast]
      exact mul_le_mul_of_nonneg_right (by exact_mod_cast Nat.log2_self_le hm) hpos.le
    have hlog' : v < (2 : ℚ) ^ ((m.log2 : ℤ) + 1 + e) := by
      refine hhigh.trans_le ?_
      have hsucc : ((m.log2 : ℤ) + 1) = ((m.log2 + 1 : ℕ) : ℤ) := by push_cast; rfl
      rw [zpow_add₀ two_ne_zero, hsucc, zpow_natCast]
      exact mul_le_mul_of_nonneg_right (by exact_mod_cast Nat.lt_log2_self (n := m)) hpos.le
    have h1 := (zpow_lt_zpow_iff_right₀ one_lt_two).1 (hlog.trans_lt hbelow)
    rcases habove with rfl | habove
    · omega
    · have h2 := (zpow_lt_zpow_iff_right₀ one_lt_two).1 (habove.trans_lt hlog')
      omega

theorem mantissa_ofMantissaAndAccuracy (m : ℕ) (acc : Accuracy) :
    (ExtendedMantissa.ofMantissaAndAccuracy m acc).mantissa = m := by
  cases acc with
  | exact => rfl
  | inexact o => cases o <;> rfl

/-- **A value that a double covers is rounded to this double**, whatever finer mantissa it is told by. -/
theorem roundWithAccuracy_eq {s : Sign} {m : ℕ} {e : ℤ} {acc : Accuracy} {b : Binary} (hb : b.Regular) {v : ℚ}
    (hv : b.Covers (v / 2 ^ b.exponent)) (hkeeps : Keeps (.ofMantissaAndAccuracy m acc) (v / 2 ^ e))
    (he : e ≤ Format.binary64.targetExponent (totalExponent m e)) :
    roundWithAccuracy .binary64 s m e acc = .finite s b.mantissa b.exponent hb.pos := by
  have hfloor := keeps_floor hkeeps
  rw [mantissa_ofMantissaAndAccuracy] at hfloor
  by_cases hplace : b.exponent = -1074 ∨ (2 : ℚ) ^ (b.exponent + 52) ≤ v
  · -- the places of the double are those at which the value is rounded
    have hbelow : v < 2 ^ (b.exponent + 53) := by
      have hm : (b.mantissa : ℚ) + 1 ≤ 2 ^ 53 := by exact_mod_cast hb.lt
      have hlt : v / 2 ^ b.exponent < 2 ^ 53 := by linarith [hv.high]
      rwa [div_lt_iff₀ (zpow_pos two_pos _), ← zpow_natCast, ← zpow_add₀ two_ne_zero, add_comm] at hlt
    have ht := targetExponent_of_bounds hfloor.1 hfloor.2 he hb.low hbelow hplace
    rw [ht] at he
    have hr := @roundedMantissa_eq _ _ (keeps_shift hkeeps he) b.mantissa
      (by linarith [hv.low, b.lowGap_le]) hv.high (by
        intro htie
        apply hv.tie
        rcases htie with htie | htie
        · left
          linarith [hv.low, b.lowGap_le]
        · exact Or.inr htie)
    exact roundWithAccuracy_of_lt (shiftToTarget_eq acc ht he) hr hb.lt hb.pos hb.low
  · -- the value lies just below a power of two, and is rounded up to it in places half as large
    obtain ⟨hleast, hlt⟩ := not_or.1 hplace
    rw [not_le] at hlt
    have hfull : 2 ^ 52 ≤ b.mantissa := hb.full.resolve_left hleast
    have hunder : v / 2 ^ b.exponent < 2 ^ 52 := by
      rwa [div_lt_iff₀ (zpow_pos two_pos _), ← zpow_natCast, ← zpow_add₀ two_ne_zero, add_comm]
    have hm : b.mantissa = 2 ^ 52 := by
      have h1 : (b.mantissa : ℚ) < 2 ^ 52 + 1 := by linarith [hv.low, b.lowGap_le]
      norm_cast at h1
      omega
    -- the double is that power of two, whose lower neighbour is half as far away
    have hgap : b.lowGap = 1 / 4 := if_pos ⟨hm, hleast⟩
    have hlow : (2 : ℚ) ^ 52 - 1 / 4 ≤ v / 2 ^ b.exponent := by
      have h1 := hv.low
      rw [hgap, hm] at h1
      exact_mod_cast h1
    have hhalf : v / 2 ^ (b.exponent - 1) = 2 * (v / 2 ^ b.exponent) := by
      rw [zpow_sub_one₀ two_ne_zero]
      field_simp
    have hnext : -1074 ≤ b.exponent - 1 := by
      have := hb.low
      omega
    have hbelow : v < 2 ^ (b.exponent - 1 + 53) := by
      rw [show b.exponent - 1 + 53 = b.exponent + 52 by ring]
      exact hlt
    have habove : (2 : ℚ) ^ (b.exponent - 1 + 52) ≤ v := by
      have h1 : (2 : ℚ) ^ 52 ≤ v / 2 ^ (b.exponent - 1) := by
        rw [hhalf]
        linarith
      rwa [le_div_iff₀ (zpow_pos two_pos _), ← zpow_natCast, ← zpow_add₀ two_ne_zero, add_comm] at h1
    have ht := targetExponent_of_bounds hfloor.1 hfloor.2 he hnext hbelow (Or.inr habove)
    rw [ht] at he
    -- the rounded mantissa has 54 bits, and the second shift halves it
    have hr := @roundedMantissa_eq _ _ (keeps_shift hkeeps he) (2 ^ 53)
      (by rw [hhalf]; push_cast; linarith) (by rw [hhalf]; push_cast; linarith) (fun _ => rfl)
    rw [roundWithAccuracy_of_carry (shiftToTarget_eq acc ht he) hr hnext]
    congr 1
    · exact hm.symm
    · ring

/-! ## §5. Products and quotients -/

/-- A number has as many bits as any power of two that it reaches. -/
theorem le_log2 {m k : ℕ} (h : 2 ^ k ≤ m) : k ≤ m.log2 :=
  (Nat.le_log2 (Nat.two_pow_pos k |>.trans_le h).ne').2 h

/-- **A product is rounded to the double that covers it.** -/
theorem mul_eq {m₁ m₂ : ℕ} {e₁ e₂ : ℤ} (h₁ : 0 < m₁) (h₂ : 0 < m₂) (hlarge : 2 ^ 52 ≤ m₁ * m₂) {b : Binary}
    (hb : b.Regular) (hv : b.Covers (m₁ * m₂ * 2 ^ (e₁ + e₂) / 2 ^ b.exponent)) :
    mul .binary64 (.finite .positive m₁ e₁ h₁) (.finite .positive m₂ e₂ h₂)
      = .finite .positive b.mantissa b.exponent hb.pos := by
  refine roundWithAccuracy_eq hb hv ?_ ?_
  · rw [mul_div_cancel_right₀ _ (zpow_ne_zero _ two_ne_zero)]
    exact_mod_cast keeps_exact (m₁ * m₂)
  · have := le_log2 hlarge
    rw [targetExponent_eq]
    unfold totalExponent
    omega

/-- A quotient with the accuracy of its remainder keeps the fraction. -/
theorem keeps_fraction (m : ℕ) {n : ℕ} (hn : 0 < n) :
    Keeps (.ofMantissaAndAccuracy (m / n) (accuracyOfFraction (m % n) n)) (m / n) := by
  have hn' : (0 : ℚ) < n := by exact_mod_cast hn
  have hsplit : (m : ℚ) / n = (m / n : ℕ) + (m % n : ℕ) / n := by
    have h1 : (m : ℚ) = (m / n : ℕ) * n + (m % n : ℕ) := by exact_mod_cast (Nat.div_add_mod' m n).symm
    rw [eq_comm, ← mul_div_cancel_right₀ ((m / n : ℕ) : ℚ) hn'.ne', ← add_div, ← h1]
  have hrest : ((m % n : ℕ) : ℚ) / n < 1 := by
    rw [div_lt_one hn']
    exact_mod_cast Nat.mod_lt m hn
  rw [hsplit]
  unfold accuracyOfFraction
  split
  case isTrue h =>
    rw [h, Nat.cast_zero, zero_div, add_zero]
    exact keeps_exact _
  case isFalse h =>
    have hpos : (0 : ℚ) < (m % n : ℕ) / n := div_pos (by exact_mod_cast Nat.pos_of_ne_zero h) hn'
    -- twice the remainder against the divisor tells the fraction apart from a half
    cases hcmp : compare (2 * (m % n)) n with
    | lt =>
      have hlt : ((m % n : ℕ) : ℚ) / n < 1 / 2 := by
        have h1 : 2 * ((m % n : ℕ) : ℚ) < n := by exact_mod_cast Nat.compare_eq_lt.1 hcmp
        rw [div_lt_div_iff₀ hn' two_pos]
        linarith
      show ((m / n : ℕ) : ℚ) < _ ∧ _ < ((m / n : ℕ) : ℚ) + 1 / 2
      constructor <;> linarith
    | eq =>
      have heq : ((m % n : ℕ) : ℚ) / n = 1 / 2 := by
        have h1 : 2 * ((m % n : ℕ) : ℚ) = n := by exact_mod_cast Nat.compare_eq_eq.1 hcmp
        rw [div_eq_div_iff hn'.ne' two_ne_zero]
        linarith
      show _ = ((m / n : ℕ) : ℚ) + 1 / 2
      rw [heq]
    | gt =>
      have hgt : 1 / 2 < ((m % n : ℕ) : ℚ) / n := by
        have h1 : (n : ℚ) < 2 * ((m % n : ℕ) : ℚ) := by exact_mod_cast Nat.compare_eq_gt.1 hcmp
        rw [div_lt_div_iff₀ two_pos hn']
        linarith
      show ((m / n : ℕ) : ℚ) + 1 / 2 < _ ∧ _ < ((m / n : ℕ) : ℚ) + 1
      constructor <;> linarith

/-- The exponent that a division starts from. -/
def divExponent (m₁ : ℕ) (e₁ : ℤ) (m₂ : ℕ) (e₂ : ℤ) : ℤ :=
  min (e₁ - e₂) (Format.binary64.targetExponent (totalExponent m₁ e₁ - totalExponent m₂ e₂))

/-- A quotient is taken with enough bits, and what is left over is its accuracy. -/
theorem div_def {m₁ m₂ : ℕ} {e₁ e₂ : ℤ} (h₁ : 0 < m₁) (h₂ : 0 < m₂) :
    div .binary64 (.finite .positive m₁ e₁ h₁) (.finite .positive m₂ e₂ h₂)
      = roundWithAccuracy .binary64 .positive ((m₁ <<< (e₁ - e₂ - divExponent m₁ e₁ m₂ e₂).toNat) / m₂)
          (divExponent m₁ e₁ m₂ e₂)
          (accuracyOfFraction ((m₁ <<< (e₁ - e₂ - divExponent m₁ e₁ m₂ e₂).toNat) % m₂) m₂) := rfl

/-- A division starts from enough places. -/
theorem divExponent_le {m₁ m₂ : ℕ} {e₁ e₂ : ℤ} (h₁ : 0 < m₁) (h₂ : 0 < m₂) :
    divExponent m₁ e₁ m₂ e₂ ≤ Format.binary64.targetExponent
      (totalExponent ((m₁ <<< (e₁ - e₂ - divExponent m₁ e₁ m₂ e₂).toNat) / m₂) (divExponent m₁ e₁ m₂ e₂)) := by
  generalize he : divExponent m₁ e₁ m₂ e₂ = e
  unfold divExponent at he
  rw [targetExponent_eq] at he ⊢
  by_cases hleast : e ≤ -1074
  · exact le_max_of_le_right hleast
  · -- above the least exponent the quotient has 53 bits, since the dividend was shifted far enough for that
    refine le_max_of_le_left ?_
    have hlog : 52 ≤ ((m₁ <<< (e₁ - e₂ - e).toNat) / m₂).log2 := by
      apply le_log2
      rw [Nat.le_div_iff_mul_le h₂, Nat.shiftLeft_eq]
      have hexp : 52 + (m₂.log2 + 1) ≤ m₁.log2 + (e₁ - e₂ - e).toNat := by
        unfold totalExponent at he
        omega
      calc 2 ^ 52 * m₂ ≤ 2 ^ 52 * 2 ^ (m₂.log2 + 1) := Nat.mul_le_mul_left _ Nat.lt_log2_self.le
        _ = 2 ^ (52 + (m₂.log2 + 1)) := (Nat.pow_add _ _ _).symm
        _ ≤ 2 ^ (m₁.log2 + (e₁ - e₂ - e).toNat) := Nat.pow_le_pow_right two_pos hexp
        _ = 2 ^ m₁.log2 * 2 ^ (e₁ - e₂ - e).toNat := Nat.pow_add _ _ _
        _ ≤ m₁ * 2 ^ (e₁ - e₂ - e).toNat := Nat.mul_le_mul_right _ (Nat.log2_self_le h₁.ne')
    unfold totalExponent
    omega

/-- **A quotient is rounded to the double that covers it.** -/
theorem div_eq {m₁ m₂ : ℕ} {e₁ e₂ : ℤ} (h₁ : 0 < m₁) (h₂ : 0 < m₂) {b : Binary} (hb : b.Regular)
    (hv : b.Covers (m₁ / m₂ * 2 ^ (e₁ - e₂) / 2 ^ b.exponent)) :
    div .binary64 (.finite .positive m₁ e₁ h₁) (.finite .positive m₂ e₂ h₂)
      = .finite .positive b.mantissa b.exponent hb.pos := by
  rw [div_def]
  refine roundWithAccuracy_eq hb hv ?_ (divExponent_le h₁ h₂)
  have hle : divExponent m₁ e₁ m₂ e₂ ≤ e₁ - e₂ := min_le_left _ _
  generalize divExponent m₁ e₁ m₂ e₂ = e at hle
  have hexp : ((e₁ - e₂ - e).toNat : ℤ) = e₁ - e₂ - e := by omega
  have hvalue : (m₁ : ℚ) / m₂ * 2 ^ (e₁ - e₂) / 2 ^ e = ((m₁ <<< (e₁ - e₂ - e).toNat : ℕ) : ℚ) / m₂ := by
    rw [Nat.shiftLeft_eq, Nat.cast_mul, Nat.cast_pow, Nat.cast_ofNat, ← zpow_natCast, hexp, mul_div_assoc,
      ← zpow_sub₀ two_ne_zero]
    ring
  rw [hvalue]
  exact keeps_fraction _ h₂

end Rounding
end HomeWidget
