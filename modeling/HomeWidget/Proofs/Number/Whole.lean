import HomeWidget.Proofs.Number.Scientific

/-!
# Whole numbers to doubles

The double of a whole number of 64 bits is finite: there is a double that covers the number, which is found by cutting
off what lies below 53 bits and rounding by it.

Main results: `exists_covers`, `isFinite_ofInt`.
-/
namespace HomeWidget.Rounding

variable {q r e n : ℕ}

/-! ## §1. What is cut off -/

/-- A number is a whole number of places and a rest. -/
theorem places_eq (q r e : ℕ) : ((q * 2 ^ e + r : ℕ) : ℚ) / 2 ^ (e : ℤ) = q + r / 2 ^ e := by
  have hplace : (0 : ℚ) < 2 ^ e := by positivity
  rw [zpow_natCast]
  push_cast
  rw [add_div, mul_div_cancel_right₀ _ hplace.ne']

/-- The rest is less than one place. -/
theorem rest_lt_one (h : r < 2 ^ e) : (r : ℚ) / 2 ^ e < 1 := by
  rw [div_lt_one (by positivity)]
  exact_mod_cast h

/-- A rest is at most a half if twice its bits are at most a place. -/
theorem rest_le_half (h : 2 * r ≤ 2 ^ e) : (r : ℚ) / 2 ^ e ≤ 1 / 2 := by
  rw [div_le_div_iff₀ (by positivity) two_pos]
  have hle : r * 2 ≤ 1 * 2 ^ e := by omega
  exact_mod_cast hle

/-- A rest is at least a half if twice its bits are at least a place. -/
theorem half_le_rest (h : 2 ^ e ≤ 2 * r) : 1 / 2 ≤ (r : ℚ) / 2 ^ e := by
  rw [div_le_div_iff₀ two_pos (by positivity)]
  have hle : 1 * 2 ^ e ≤ r * 2 := by omega
  exact_mod_cast hle

/-- A rest is exactly a half only if twice its bits are a place. -/
theorem rest_of_half (h : (r : ℚ) / 2 ^ e = 1 / 2) : 2 * r = 2 ^ e := by
  rw [div_eq_div_iff (by positivity) two_ne_zero] at h
  have heq : r * 2 = 1 * 2 ^ e := by exact_mod_cast h
  omega

/-! ## §2. The covering double -/

/-- Rounding down: what is left out is at most half a place. -/
theorem covers_down (hr : 2 * r < 2 ^ e ∨ 2 * r = 2 ^ e ∧ q % 2 = 0) :
    (Binary.mk false q e).Covers ((q * 2 ^ e + r : ℕ) / 2 ^ (e : ℤ)) := by
  have hhalf : (r : ℚ) / 2 ^ e ≤ 1 / 2 := rest_le_half (by omega)
  have hnonneg : (0 : ℚ) ≤ r / 2 ^ e := by positivity
  have hgap := (Binary.mk false q e).lowGap_pos
  rw [places_eq]
  refine ⟨?_, ?_, ?_⟩ <;> dsimp only
  · linarith
  · linarith
  · intro htie
    -- only the upper midpoint can be met, and only by an even mantissa
    rcases htie with htie | htie
    · linarith
    · have heq : 2 * r = 2 ^ e := rest_of_half (by linarith)
      rcases hr with hr | hr
      · omega
      · exact hr.2

/-- Rounding up: what is added is at most half a place. -/
theorem covers_up (hq : 2 ^ 52 ≤ q) (hlt : r < 2 ^ e) (hr : 2 ^ e < 2 * r ∨ 2 * r = 2 ^ e ∧ q % 2 = 1) :
    (Binary.mk false (q + 1) e).Covers ((q * 2 ^ e + r : ℕ) / 2 ^ (e : ℤ)) := by
  have hgap : (Binary.mk false (q + 1) e).lowGap = 1 / 2 := by
    apply if_neg
    rintro ⟨h, -⟩
    dsimp only at h
    omega
  have hhalf : 1 / 2 ≤ (r : ℚ) / 2 ^ e := half_le_rest (by omega)
  have hone := rest_lt_one hlt
  rw [places_eq]
  refine ⟨?_, ?_, ?_⟩ <;> try rw [hgap]
  all_goals
    dsimp only
    push_cast
  · linarith
  · linarith
  · intro htie
    -- only the lower midpoint can be met, and then the mantissa before rounding is odd
    rcases htie with htie | htie
    · have heq : 2 * r = 2 ^ e := rest_of_half (by linarith)
      omega
    · linarith

/-- A mantissa that carries goes into the next power of two, whose places are twice as large. -/
theorem covers_carry (hlt : r < 2 ^ e) (hr : 2 ^ e ≤ 2 * r) :
    (Binary.mk false (2 ^ 52) (e + 1)).Covers (((2 ^ 53 - 1) * 2 ^ e + r : ℕ) / 2 ^ ((e : ℤ) + 1)) := by
  have hvalue : (((2 ^ 53 - 1) * 2 ^ e + r : ℕ) : ℚ) / 2 ^ ((e : ℤ) + 1) = (2 ^ 53 - 1 + r / 2 ^ e) / 2 := by
    rw [zpow_add_one₀ two_ne_zero, ← div_div, places_eq]
    norm_num
  have hgap : (Binary.mk false (2 ^ 52) (e + 1)).lowGap = 1 / 4 := if_pos ⟨rfl, by dsimp only; omega⟩
  have hhalf := half_le_rest hr
  have hone := rest_lt_one hlt
  have heven : 2 ^ 52 % 2 = 0 := by norm_num
  rw [hvalue]
  refine ⟨?_, ?_, fun _ => heven⟩ <;> try rw [hgap]
  all_goals
    dsimp only
    push_cast
    linarith

/-- There is a double for every whole number of 64 bits. -/
theorem exists_covers (hn : 0 < n) (hlt : n < 2 ^ 64) :
    ∃ b : Binary, b.Regular ∧ b.Covers (n / 2 ^ b.exponent) := by
  by_cases hsmall : n < 2 ^ 53
  · refine ⟨wholeParts n, regular_wholeParts hn hsmall, ?_⟩
    have hexact : (n : ℚ) / 2 ^ (wholeParts n).exponent = (wholeParts n).mantissa := by
      rw [← size_wholeParts n]
      exact mul_div_cancel_right₀ _ (zpow_ne_zero _ two_ne_zero)
    rw [hexact]
    exact (wholeParts n).covers_self
  · -- the first 53 bits are the mantissa, and the rest of the number tells how it is rounded
    obtain ⟨e, he⟩ : ∃ e, n.log2 = 52 + e := Nat.exists_eq_add_of_le (le_log2 (by omega))
    have hlog : n.log2 < 64 := (Nat.log2_lt hn.ne').2 hlt
    have hplace : 0 < 2 ^ e := Nat.two_pow_pos e
    have hsplit : n = n / 2 ^ e * 2 ^ e + n % 2 ^ e := (Nat.div_add_mod' n (2 ^ e)).symm
    have hr : n % 2 ^ e < 2 ^ e := Nat.mod_lt n hplace
    have hlow : 2 ^ 52 ≤ n / 2 ^ e := by
      rw [Nat.le_div_iff_mul_le hplace, ← Nat.pow_add, ← he]
      exact Nat.log2_self_le hn.ne'
    have hhigh : n / 2 ^ e < 2 ^ 53 := by
      rw [Nat.div_lt_iff_lt_mul hplace, ← Nat.pow_add, show 53 + e = n.log2 + 1 by omega]
      exact Nat.lt_log2_self
    generalize n / 2 ^ e = q at hsplit hlow hhigh
    generalize n % 2 ^ e = r at hsplit hr
    rw [hsplit]
    by_cases hdown : 2 * r < 2 ^ e ∨ 2 * r = 2 ^ e ∧ q % 2 = 0
    · exact ⟨⟨false, q, e⟩, ⟨by dsimp only; omega, hhigh, by dsimp only; omega, by dsimp only; omega, Or.inr hlow⟩,
        covers_down hdown⟩
    · by_cases hcarry : q + 1 < 2 ^ 53
      · exact ⟨⟨false, q + 1, e⟩, ⟨by dsimp only; omega, hcarry, by dsimp only; omega, by dsimp only; omega,
          Or.inr (by dsimp only; omega)⟩, covers_up hlow hr (by omega)⟩
      · obtain rfl : q = 2 ^ 53 - 1 := by omega
        exact ⟨⟨false, 2 ^ 52, e + 1⟩, ⟨by dsimp only; omega, by dsimp only; omega, by dsimp only; omega,
          by dsimp only; omega, Or.inr (le_refl _)⟩, covers_carry hr (by omega)⟩

/-! ## §3. Finite doubles -/

/-- Whole numbers of 64 bits are finite doubles. -/
theorem isFinite_ofNat (hlt : n < 2 ^ 64) : (Float.ofNat n).isFinite = true ∧ (-Float.ofNat n).isFinite = true := by
  by_cases hn : 0 < n
  · obtain ⟨b, hb, hv⟩ := exists_covers hn hlt
    have hzero : (n : ℚ) * 10 ^ scale false 0 = n := by
      show (n : ℚ) * 10 ^ ((0 : ℕ) : ℤ) = n
      rw [Nat.cast_zero, zpow_zero, mul_one]
    rw [← hzero] at hv
    have hfloat : Float.ofNat n = hb.toFloat .positive := ofScientific_eq hn false 0 hb hv
    rw [hfloat, hb.neg_toFloat]
    exact ⟨hb.isFinite_toFloat _, hb.isFinite_toFloat _⟩
  · obtain rfl : n = 0 := Nat.eq_zero_of_not_pos hn
    decide +kernel

/-- **The double of a whole number of 64 bits is finite.** -/
theorem isFinite_ofInt {i : ℤ} (hlow : -2 ^ 63 ≤ i) (hhigh : i < 2 ^ 64) : (Float.ofInt i).isFinite = true := by
  cases i with
  | ofNat m =>
    have hm : m < 2 ^ 64 := by
      have : (m : ℤ) < 2 ^ 64 := hhigh
      omega
    exact (isFinite_ofNat hm).1
  | negSucc m =>
    have hm : m + 1 < 2 ^ 64 := by omega
    exact (isFinite_ofNat hm).2

end HomeWidget.Rounding
