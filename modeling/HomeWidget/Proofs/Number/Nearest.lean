import HomeWidget.Proofs.Number.Exact
import HomeWidget.Proofs.Scalar

/-!
# Whole doubles next to a double

The greatest whole double that is not above a finite double is exact, and so is the nearest one: a double with places
behind the point is less than `2 ^ 52`, and what lies behind its point is a double again. Infinities and what is not a
number are not rounded to a finite double.

Main results: `exactly_wholeBelow`, `exactly_round`, `isFinite_of_round`.
-/
namespace HomeWidget.Double

open Float.Model UnpackedFloat

variable {x y : Float} {p q : ℚ}

/-! ## §1. The point -/

/-- A finite double has a mantissa of at most 53 bits. -/
theorem mantissa_lt (hx : x.isFinite = true) : (Binary.ofFloat x).mantissa < 2 ^ 53 := by
  by_cases hm : (Binary.ofFloat x).mantissa = 0
  · rw [hm]
    exact Nat.two_pow_pos 53
  · exact (Binary.regular_ofFloat hx hm).lt

/-- The least exponent bounds the places behind the point. -/
theorem exponent_ge (x : Float) : -1074 ≤ (Binary.ofFloat x).exponent := by
  unfold Binary.ofFloat
  dsimp only
  split
  · exact le_refl _
  · dsimp only [Int.ofNat_eq_natCast]
    omega

/-- What is not finite has the exponent of a double without places behind the point. -/
theorem exponent_of_not_finite (hx : x.isFinite = false) : (Binary.ofFloat x).exponent = .ofNat 972 := by
  have hfield : x.toBits.toNat / 2 ^ 52 % 2 ^ 11 = 2047 := by
    by_contra hexp
    -- with another exponent field the double unpacks to zero or to its parts
    have hfinite : (unpack .binary64 x.toBits.toBitVec).isFinite = true := by
      by_cases hzero : x.toBits.toNat / 2 ^ 52 % 2 ^ 11 = 0
      · by_cases hm : 0 < x.toBits.toNat % 2 ^ 52
        · rw [Binary.unpack_subnormal x.toBits.toBitVec hzero hm]
          rfl
        · rw [Binary.unpack_zero x.toBits.toBitVec hzero (Nat.eq_zero_of_not_pos hm)]
          rfl
      · rw [Binary.unpack_normal x.toBits.toBitVec hexp hzero]
        rfl
    change (unpack .binary64 x.toBits.toBitVec).isFinite = false at hx
    rw [hfinite] at hx
    cases hx
  unfold Binary.ofFloat
  dsimp only
  rw [hfield]
  rfl

/-- A double without places behind the point is whole. -/
theorem value_of_ofNat {b : Binary} {e : ℕ} (he : b.exponent = .ofNat e) :
    b.value = ((if b.negative then -(b.mantissa * 2 ^ e : ℤ) else b.mantissa * 2 ^ e : ℤ) : ℚ) := by
  unfold Binary.value Binary.size
  rw [he, Int.ofNat_eq_natCast, zpow_natCast]
  split <;> push_cast <;> rfl

/-- A double with places behind the point is a fraction. -/
theorem value_of_negSucc {b : Binary} {e : ℕ} (he : b.exponent = .negSucc e) :
    b.value = if b.negative then -(b.mantissa / (2 ^ (e + 1) : ℕ) : ℚ) else b.mantissa / (2 ^ (e + 1) : ℕ) := by
  unfold Binary.value Binary.size
  rw [he, zpow_negSucc, div_eq_mul_inv, Nat.cast_pow, Nat.cast_ofNat]

/-! ## §2. The greatest whole double below -/

theorem floor_div (m n : ℕ) : ⌊(m / n : ℚ)⌋ = ((m / n : ℕ) : ℤ) := by
  rw [Rat.floor_natCast_div_natCast]
  rfl

/-- A fraction is rounded up by a division, after one less than the denominator is added. -/
theorem ceil_div (m : ℕ) {n : ℕ} (hn : 0 < n) : ⌈(m / n : ℚ)⌉ = (((m + (n - 1)) / n : ℕ) : ℤ) := by
  have hn' : (0 : ℚ) < n := by exact_mod_cast hn
  have hlow : (m + (n - 1)) / n * n ≤ m + (n - 1) := Nat.div_mul_le_self _ _
  have hhigh : m + (n - 1) < n * ((m + (n - 1)) / n + 1) := Nat.lt_mul_div_succ _ hn
  generalize (m + (n - 1)) / n = k at hlow hhigh
  rw [Int.ceil_eq_iff, lt_div_iff₀ hn', div_le_iff₀ hn']
  constructor
  · have h : k * n < m + n := by omega
    have h' : ((k : ℚ)) * n < m + n := by exact_mod_cast h
    push_cast
    linarith
  · have h : m ≤ k * n := by
      rw [Nat.mul_add, Nat.mul_one, Nat.mul_comm] at hhigh
      omega
    exact_mod_cast h

/-- **The greatest whole double that is not above a double is the whole number below its value.** -/
theorem exactly_wholeBelow (h : Exactly x q) : Exactly (Float.wholeBelow x) ⌊q⌋ := by
  have hlt := mantissa_lt h.finite
  have hvalue := h.value
  unfold Float.wholeBelow
  dsimp only
  generalize Binary.ofFloat x = b at hlt hvalue
  split
  next e he =>
    have hwhole := value_of_ofNat he
    rw [hvalue] at hwhole
    rw [hwhole, Int.floor_intCast, ← hwhole]
    exact h
  next e he =>
    have hplaces := value_of_negSucc he
    rw [hvalue] at hplaces
    have hpos : 2 ≤ 2 ^ (e + 1) := by
      rw [Nat.pow_succ]
      have := Nat.two_pow_pos e
      omega
    generalize 2 ^ (e + 1) = places at hplaces hpos
    rw [hplaces]
    split
    · rw [Int.floor_neg, ceil_div _ (by omega), Int.cast_neg, Int.cast_natCast]
      refine exactly_neg (exactly_ofNat ?_)
      rw [Nat.div_lt_iff_lt_mul (by omega)]
      calc b.mantissa + (places - 1) < 2 ^ 53 + places := by omega
        _ ≤ 2 ^ 53 * places := by nlinarith
    · rw [floor_div, Int.cast_natCast]
      exact exactly_ofNat ((Nat.div_le_self _ _).trans_lt hlt)

/-- What is not finite has no whole double below. -/
theorem wholeBelow_of_not_finite (hx : x.isFinite = false) : Float.wholeBelow x = x := by
  unfold Float.wholeBelow
  dsimp only
  rw [exponent_of_not_finite hx]

/-! ## §3. The nearest whole double -/

/-- A double that is not negative is whole, or a mantissa in places behind the point. -/
theorem whole_or_places (h : Exactly x q) (hq : 0 ≤ q) :
    (∃ z : ℤ, q = z) ∨ ∃ m d : ℕ, m < 2 ^ 53 ∧ 0 < d ∧ d ≤ 1074 ∧ q = m / (2 ^ d : ℕ) := by
  have hlt := mantissa_lt h.finite
  have hlow := exponent_ge x
  have hvalue := h.value
  generalize Binary.ofFloat x = b at hlt hlow hvalue
  cases he : b.exponent with
  | ofNat e => exact Or.inl ⟨_, hvalue.symm.trans (value_of_ofNat he)⟩
  | negSucc e =>
    have hplaces := value_of_negSucc he
    rw [hvalue] at hplaces
    rw [he] at hlow
    refine Or.inr ⟨b.mantissa, e + 1, hlt, by omega, by omega, ?_⟩
    -- only zero has a sign here
    by_cases hneg : b.negative = true
    · rw [if_pos hneg] at hplaces
      have hnonneg : (0 : ℚ) ≤ b.mantissa / (2 ^ (e + 1) : ℕ) := by positivity
      linarith
    · rwa [if_neg hneg] at hplaces

/-- What lies behind the point of a double that is not negative is a double. -/
theorem representable_fract (h : Exactly x q) (hq : 0 ≤ q) : Representable (q - ⌊q⌋) := by
  rcases whole_or_places h hq with ⟨z, rfl⟩ | ⟨m, d, hlt, hpos, hplaces, rfl⟩
  · left
    rw [Int.floor_intCast, sub_self]
  · -- what is left of the mantissa counts the places
    have hrest : (m / (2 ^ d : ℕ) : ℚ) - ⌊(m / (2 ^ d : ℕ) : ℚ)⌋ = ((m % 2 ^ d : ℕ) : ℤ) * 2 ^ (-(d : ℤ)) := by
      have hplace : (2 : ℚ) ^ (-(d : ℤ)) = ((2 ^ d : ℕ) : ℚ)⁻¹ := by
        rw [zpow_neg, zpow_natCast, Nat.cast_pow, Nat.cast_ofNat]
      have hunit : ((2 ^ d : ℕ) : ℚ) ≠ 0 := by positivity
      rw [hplace, floor_div]
      generalize 2 ^ d = places at hunit
      have hsplit : (m : ℚ) = places * (m / places : ℕ) + (m % places : ℕ) := by
        exact_mod_cast (Nat.div_add_mod m places).symm
      rw [Int.cast_natCast, Int.cast_natCast, ← div_eq_mul_inv, sub_eq_iff_eq_add, div_add' _ _ _ hunit, hsplit]
      congr 1
      ring
    rw [hrest]
    refine representable_mul_zpow ?_ (by omega) (by omega)
    have hle : m % 2 ^ d ≤ m := Nat.mod_le _ _
    rw [abs_of_nonneg (Int.natCast_nonneg _)]
    omega

/-- Rounding up stays among the doubles: with places behind the point a double is far from the greatest ones. -/
theorem floor_add_one_lt (h : Exactly x q) (hq : 0 ≤ q) (hfract : 1 / 2 ≤ q - ⌊q⌋) : |⌊q⌋ + 1| < 2 ^ 53 := by
  have hfloor : 0 ≤ ⌊q⌋ := Int.floor_nonneg.2 hq
  rw [abs_of_nonneg (by omega)]
  rcases whole_or_places h hq with ⟨z, rfl⟩ | ⟨m, d, hlt, hpos, -, rfl⟩
  · rw [Int.floor_intCast, sub_self] at hfract
    exact absurd hfract (by norm_num)
  · have hplace : 2 ≤ 2 ^ d := Nat.le_self_pow hpos.ne' 2
    have hhalf : m / 2 ^ d ≤ m / 2 := Nat.div_le_div_left hplace two_pos
    rw [floor_div]
    omega

/-- Half a step up, then down to the whole double below, for a double that is not negative. -/
def halfUp (x : Float) : Float :=
  if (0.5 : Float) ≤ x - Float.wholeBelow x then Float.wholeBelow x + 1.0 else Float.wholeBelow x

/-- A double that is not negative is rounded exactly: a half is added, and the whole part is taken. -/
theorem exactly_halfUp (h : Exactly x q) (hq : 0 ≤ q) : Exactly (halfUp x) ⌊q + 1 / 2⌋ := by
  have hwhole := exactly_wholeBelow h
  have hfract := exactly_sub h hwhole (representable_fract h hq)
  unfold halfUp
  rw [Scalar.floor_add_half]
  by_cases hhalf : 1 / 2 ≤ q - ⌊q⌋
  · have hup : Representable ((⌊q⌋ : ℚ) + 1) := by
      have h := representable_intCast (floor_add_one_lt h hq hhalf)
      rwa [Int.cast_add, Int.cast_one] at h
    rw [if_pos hhalf, if_pos ((le_iff exactly_half hfract).2 hhalf), Int.cast_add, Int.cast_one]
    exact exactly_add hwhole exactly_one hup
  · rw [if_neg hhalf, if_neg fun hle => hhalf ((le_iff exactly_half hfract).1 hle)]
    exact hwhole

theorem round_def (x : Float) : Scalar.round x = if x < 0.0 then -halfUp (-x) else halfUp x := rfl

/-- **A finite double is rounded to the nearest whole number.** -/
theorem exactly_round (h : Exactly x q) : Exactly (Scalar.round x) (Scalar.nearest q) := by
  have hsign := lt_iff h exactly_zero
  rw [round_def]
  unfold Scalar.nearest
  by_cases hneg : q < 0
  · rw [if_pos hneg, if_pos (hsign.2 hneg), Int.cast_neg]
    exact exactly_neg (exactly_halfUp (exactly_neg h) (by linarith))
  · rw [if_neg hneg, if_neg fun hlt => hneg (hsign.1 hlt)]
    exact exactly_halfUp h (not_lt.1 hneg)

/-! ## §4. What is not finite -/

/-- A double that is finite was packed from something finite. -/
theorem isFinite_of_pack {u : UnpackedFloat} (h : (Float.ofModel (.pack u)).isFinite = true) : u.isFinite = true := by
  cases u with
  | zero s => rfl
  | finite s m e hm => rfl
  | notANumber => exact h
  | infinity s => cases s <;> exact h

/-- The negation of what is not finite is not finite. -/
theorem isFinite_of_neg (h : (-x).isFinite = true) : x.isFinite = true := by
  have hneg := isFinite_of_pack h
  show x.toModel.unpack.isFinite = true
  generalize x.toModel.unpack = u at hneg ⊢
  cases u <;> first | rfl | exact hneg

/-- A sum with what is not finite is not finite. -/
theorem isFinite_of_add (h : (x + y).isFinite = true) : x.isFinite = true := by
  have hadd := isFinite_of_pack h
  show x.toModel.unpack.isFinite = true
  generalize x.toModel.unpack = u at hadd ⊢
  generalize y.toModel.unpack = v at hadd
  cases u with
  | zero s => rfl
  | finite s m e hm => rfl
  | notANumber => cases v <;> exact hadd
  | infinity s =>
    cases v with
    | infinity t => cases s <;> cases t <;> exact hadd
    | _ => exact hadd

/-- What is not finite is not rounded to anything finite. -/
theorem isFinite_of_halfUp (h : (halfUp x).isFinite = true) : x.isFinite = true := by
  by_contra hx
  have hwhole := wholeBelow_of_not_finite (Bool.eq_false_iff.2 hx)
  unfold halfUp at h
  rw [hwhole] at h
  split at h
  · exact hx (isFinite_of_add h)
  · exact hx h

/-- **Only finite doubles are rounded to finite ones.** -/
theorem isFinite_of_round (h : (Scalar.round x).isFinite = true) : x.isFinite = true := by
  rw [round_def] at h
  split at h
  · exact isFinite_of_neg (isFinite_of_halfUp (isFinite_of_neg h))
  · exact isFinite_of_halfUp h

end HomeWidget.Double
