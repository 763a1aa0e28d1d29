import HomeWidget.Number.Shortest
import HomeWidget.Proofs.Number.Rounding

/-!
# Shortest digits read back

The digits that are chosen for a double lie between its midpoints. Each grid is searched at the two points next to the
double; a grid is fine enough once its places are narrower than the interval, and with seventeen digits they are.

Main results: `covers_of_contains`, `exists_onGrid?`, `digits_covers`.
-/
namespace HomeWidget.Shortest

/-! ## §1. Common denominators -/

/-- The denominator that `onCommon` brings both sides to. -/
def common (k : ℤ) (denominator : ℕ) : ℚ := denominator * 10 ^ (-k).toNat

theorem common_pos (k : ℤ) {denominator : ℕ} (h : 0 < denominator) : 0 < common k denominator := by
  unfold common
  positivity

/-- A decimal is brought to the denominator that it shares with a fraction. -/
theorem onCommon_fst (n : ℕ) (k : ℤ) (numerator denominator : ℕ) :
    ((onCommon n k numerator denominator).1 : ℚ) = n * 10 ^ k * common k denominator := by
  have hpow : (10 : ℚ) ^ k * 10 ^ (-k).toNat = 10 ^ k.toNat := by
    rw [← zpow_natCast, ← zpow_natCast, ← zpow_add₀ (by norm_num)]
    congr 1
    omega
  unfold onCommon common
  push_cast
  rw [← hpow]
  ring

/-- The fraction that a decimal is compared with is brought to the same denominator. -/
theorem onCommon_snd (n : ℕ) (k : ℤ) (numerator : ℕ) {denominator : ℕ} (h : 0 < denominator) :
    ((onCommon n k numerator denominator).2 : ℚ) = numerator / denominator * common k denominator := by
  have h' : (denominator : ℚ) ≠ 0 := by exact_mod_cast h.ne'
  unfold onCommon common
  push_cast
  field_simp

/-! ## §2. The interval of a double -/

section
variable (b : Binary)

theorem denominator_pos : 0 < (Target.ofBinary b).denominator := Nat.two_pow_pos _

/-- A quarter of a place, over the denominator of the target. -/
theorem quarter_eq (q : ℕ) :
    ((q * 2 ^ (b.exponent - 2).toNat : ℕ) : ℚ) / (Target.ofBinary b).denominator = q / 4 * 2 ^ b.exponent := by
  have hpow : (2 : ℚ) ^ (b.exponent - 2).toNat = 2 ^ (b.exponent - 2) * 2 ^ (2 - b.exponent).toNat := by
    rw [← zpow_natCast, ← zpow_natCast, ← zpow_add₀ two_ne_zero]
    congr 1
    omega
  have hden : ((Target.ofBinary b).denominator : ℚ) = 2 ^ (2 - b.exponent).toNat := by
    show ((2 ^ (2 - b.exponent).toNat : ℕ) : ℚ) = _
    push_cast
    rfl
  rw [hden, Nat.cast_mul, Nat.cast_pow, Nat.cast_ofNat, hpow, zpow_sub₀ two_ne_zero]
  field_simp
  norm_num

/-- The value of a target is the size of the double. -/
theorem value_eq : ((Target.ofBinary b).value : ℚ) / (Target.ofBinary b).denominator = b.size := by
  refine (quarter_eq b (4 * b.mantissa)).trans ?_
  unfold Binary.size
  push_cast
  ring

/-- The upper end of a target is half a place above the double. -/
theorem high_eq : ((Target.ofBinary b).high : ℚ) / (Target.ofBinary b).denominator
    = (b.mantissa + 1 / 2) * 2 ^ b.exponent := by
  refine (quarter_eq b (4 * b.mantissa + 2)).trans ?_
  push_cast
  ring

/-- The lower end of a target is the gap below the double away, which is smaller at a power of two. -/
theorem low_eq (hm : 0 < b.mantissa) : ((Target.ofBinary b).low : ℚ) / (Target.ofBinary b).denominator
    = (b.mantissa - b.lowGap) * 2 ^ b.exponent := by
  refine (quarter_eq b _).trans ?_
  unfold Binary.lowGap
  split
  · rw [Nat.cast_sub (by omega)]
    push_cast
    ring
  · rw [Nat.cast_sub (by omega)]
    push_cast
    ring

end

/-! ## §3. Points of a grid -/

variable {b : Binary} {n : ℕ} {k : ℤ}

/-- The ends belong to what is read as the double only if its mantissa is even. -/
theorem contains_def (t : Target) (n : ℕ) (k : ℤ) :
    t.contains n k = if t.closed then
        decide ((onCommon n k t.low t.denominator).2 ≤ (onCommon n k t.low t.denominator).1) &&
          decide ((onCommon n k t.low t.denominator).1 ≤ (onCommon n k t.high t.denominator).2)
      else
        decide ((onCommon n k t.low t.denominator).2 < (onCommon n k t.low t.denominator).1) &&
          decide ((onCommon n k t.low t.denominator).1 < (onCommon n k t.high t.denominator).2) := rfl

/-- On the common denominator a decimal is compared with a fraction as the numbers are. -/
theorem fst_le_snd_iff {numerator denominator : ℕ} (h : 0 < denominator) :
    (onCommon n k numerator denominator).1 ≤ (onCommon n k numerator denominator).2
      ↔ (n : ℚ) * 10 ^ k ≤ numerator / denominator := by
  rw [← @Nat.cast_le ℚ, onCommon_fst, onCommon_snd n k numerator h, mul_le_mul_iff_left₀ (common_pos k h)]

/-- So is a fraction with a decimal. -/
theorem snd_le_fst_iff {numerator denominator : ℕ} (h : 0 < denominator) :
    (onCommon n k numerator denominator).2 ≤ (onCommon n k numerator denominator).1
      ↔ (numerator : ℚ) / denominator ≤ n * 10 ^ k := by
  rw [← @Nat.cast_le ℚ, onCommon_fst, onCommon_snd n k numerator h, mul_le_mul_iff_left₀ (common_pos k h)]

/-- A point is contained if it lies between the midpoints, or on one of them if they belong to the double. -/
theorem contains_iff (hm : 0 < b.mantissa) : (Target.ofBinary b).contains n k = true ↔
    if b.mantissa % 2 = 0 then
      (b.mantissa - b.lowGap) * 2 ^ b.exponent ≤ (n : ℚ) * 10 ^ k ∧
        (n : ℚ) * 10 ^ k ≤ (b.mantissa + 1 / 2) * 2 ^ b.exponent
    else
      (b.mantissa - b.lowGap) * 2 ^ b.exponent < (n : ℚ) * 10 ^ k ∧
        (n : ℚ) * 10 ^ k < (b.mantissa + 1 / 2) * 2 ^ b.exponent := by
  have hden := denominator_pos b
  have hclosed : (Target.ofBinary b).closed = decide (b.mantissa % 2 = 0) := rfl
  have hfst : (onCommon n k (Target.ofBinary b).low (Target.ofBinary b).denominator).1
      = (onCommon n k (Target.ofBinary b).high (Target.ofBinary b).denominator).1 := rfl
  rw [contains_def, hclosed]
  by_cases heven : b.mantissa % 2 = 0
  · rw [if_pos (decide_eq_true heven), if_pos heven, Bool.and_eq_true, decide_eq_true_eq, decide_eq_true_eq,
      snd_le_fst_iff hden, hfst, fst_le_snd_iff hden, low_eq b hm, high_eq]
  · have hodd : ¬decide (b.mantissa % 2 = 0) = true := by rw [decide_eq_true_eq]; exact heven
    rw [if_neg hodd, if_neg heven, Bool.and_eq_true, decide_eq_true_eq, decide_eq_true_eq, ← not_le, ← not_le,
      fst_le_snd_iff hden, hfst, snd_le_fst_iff hden, low_eq b hm, high_eq, not_le, not_le]

/-- **A contained point is covered by the double.** -/
theorem covers_of_contains (hm : 0 < b.mantissa) (h : (Target.ofBinary b).contains n k = true) :
    b.Covers (n * 10 ^ k / 2 ^ b.exponent) := by
  have hplace : (0 : ℚ) < 2 ^ b.exponent := zpow_pos two_pos _
  rw [contains_iff hm] at h
  split at h
  case isTrue heven => exact ⟨(le_div_iff₀ hplace).2 h.1, (div_le_iff₀ hplace).2 h.2, fun _ => heven⟩
  case isFalse =>
    have hlow := (lt_div_iff₀ hplace).2 h.1
    have hhigh := (div_lt_iff₀ hplace).2 h.2
    refine ⟨hlow.le, hhigh.le, fun htie => ?_⟩
    rcases htie with htie | htie
    · exact absurd htie hlow.ne'
    · exact absurd htie hhigh.ne

/-- What is found on a grid is contained. -/
theorem contains_of_onGrid? {t : Target} (h : t.onGrid? k = some n) : t.contains n k = true := by
  unfold Target.onGrid? at h
  dsimp only at h
  split at h
  next hbelow habove =>
    split at h
    · exact Option.some.inj h ▸ hbelow
    · exact Option.some.inj h ▸ habove
  next hbelow _ => exact Option.some.inj h ▸ hbelow
  next _ habove => exact Option.some.inj h ▸ habove
  next => cases h

/-- The two points that are tried lie on both sides of the double. -/
theorem below_le (b : Binary) (k : ℤ) : ∃ below : ℕ, (below : ℚ) * 10 ^ k ≤ b.size ∧
    b.size < ((below + 1 : ℕ) : ℚ) * 10 ^ k ∧ ((Target.ofBinary b).onGrid? k = none →
      (Target.ofBinary b).contains below k = false ∧ (Target.ofBinary b).contains (below + 1) k = false) := by
  have hden := denominator_pos b
  have hcommon := common_pos k hden
  have hunit := onCommon_fst 1 k (Target.ofBinary b).value (Target.ofBinary b).denominator
  have hvalue := onCommon_snd 1 k (Target.ofBinary b).value hden
  rw [Nat.cast_one, one_mul] at hunit
  rw [value_eq] at hvalue
  have hpos : 0 < (onCommon 1 k (Target.ofBinary b).value (Target.ofBinary b).denominator).1 := by
    have : (0 : ℚ) < ((onCommon 1 k (Target.ofBinary b).value (Target.ofBinary b).denominator).1 : ℚ) := by
      rw [hunit]
      exact mul_pos (zpow_pos (by norm_num) k) hcommon
    exact_mod_cast this
  refine ⟨(onCommon 1 k (Target.ofBinary b).value (Target.ofBinary b).denominator).2 /
    (onCommon 1 k (Target.ofBinary b).value (Target.ofBinary b).denominator).1, ?_, ?_, ?_⟩
  · -- the lower point is the quotient, in units of the grid
    have hle := Nat.div_mul_le_self (onCommon 1 k (Target.ofBinary b).value (Target.ofBinary b).denominator).2
      (onCommon 1 k (Target.ofBinary b).value (Target.ofBinary b).denominator).1
    rw [← @Nat.cast_le ℚ, Nat.cast_mul, hunit, hvalue, ← mul_assoc] at hle
    exact le_of_mul_le_mul_right hle hcommon
  · have hlt := Nat.lt_mul_div_succ (onCommon 1 k (Target.ofBinary b).value (Target.ofBinary b).denominator).2 hpos
    rw [← @Nat.cast_lt ℚ, Nat.cast_mul, hunit, hvalue, mul_comm, mul_comm (_ * _) ((_ : ℕ) : ℚ), ← mul_assoc,
      mul_comm _ b.size] at hlt
    exact lt_of_mul_lt_mul_right hlt hcommon.le
  · intro h
    unfold Target.onGrid? at h
    dsimp only at h
    split at h
    case h_4 hbelow habove => exact ⟨hbelow, habove⟩
    all_goals cases h

/-- **A grid whose places are narrower than the interval has a point in it.** -/
theorem exists_onGrid? (hm : 0 < b.mantissa) (hfine : (10 : ℚ) ^ k < (1 / 2 + b.lowGap) * 2 ^ b.exponent) :
    ∃ n, (Target.ofBinary b).onGrid? k = some n := by
  cases hgrid : (Target.ofBinary b).onGrid? k with
  | some n => exact ⟨n, rfl⟩
  | none =>
    exfalso
    obtain ⟨below, hbelow, habove, hnone⟩ := below_le b k
    obtain ⟨hno, hno'⟩ := hnone hgrid
    have hplace : (0 : ℚ) < 2 ^ b.exponent := zpow_pos two_pos _
    have hsize : b.size = b.mantissa * 2 ^ b.exponent := rfl
    have hgap := mul_pos b.lowGap_pos hplace
    rw [← Bool.not_eq_true, contains_iff hm] at hno hno'
    -- the lower point cannot be too great, nor the upper one too small; so both lie outside on their own sides
    have hlow : (below : ℚ) * 10 ^ k ≤ (b.mantissa - b.lowGap) * 2 ^ b.exponent := by
      by_contra hlt
      apply hno
      rw [not_le] at hlt
      split
      · exact ⟨hlt.le, by linarith⟩
      · exact ⟨hlt, by linarith⟩
    have hhigh : (b.mantissa + 1 / 2) * 2 ^ b.exponent ≤ ((below + 1 : ℕ) : ℚ) * 10 ^ k := by
      by_contra hlt
      apply hno'
      rw [not_le] at hlt
      split
      · exact ⟨by linarith, hlt.le⟩
      · exact ⟨by linarith, hlt⟩
    push_cast at hhigh
    linarith

/-! ## §4. The leading digit -/

/-- A power of ten is found not to exceed the size of a double just when it does not. -/
theorem reaches_iff (e : ℤ) :
    (onCommon 1 e (Target.ofBinary b).value (Target.ofBinary b).denominator).1
        ≤ (onCommon 1 e (Target.ofBinary b).value (Target.ofBinary b).denominator).2 ↔ (10 : ℚ) ^ e ≤ b.size := by
  rw [fst_le_snd_iff (denominator_pos b), value_eq, Nat.cast_one, one_mul]

/-- A power of ten is below a power of two if the fraction `q / p` stands for the ratio of their logarithms. -/
theorem ten_le_two_of_ratio {g bits : ℤ} {p q : ℕ} (hp : p ≠ 0) (h : p * g ≤ q * bits)
    (hratio : ((10 : ℚ) ^ q) ^ bits ≤ (2 ^ p) ^ bits) : (10 : ℚ) ^ g ≤ 2 ^ bits := by
  refine (pow_le_pow_iff_left₀ (by positivity) (by positivity) hp).1 ?_
  calc ((10 : ℚ) ^ g) ^ p = 10 ^ (p * g) := by rw [← zpow_natCast, ← zpow_mul, mul_comm]
    _ ≤ 10 ^ (q * bits) := zpow_le_zpow_right₀ (by norm_num) h
    _ = ((10 : ℚ) ^ q) ^ bits := by rw [zpow_mul, zpow_natCast]
    _ ≤ ((2 : ℚ) ^ p) ^ bits := hratio
    _ = (2 ^ bits) ^ p := by rw [← zpow_natCast, ← zpow_natCast, ← zpow_mul, ← zpow_mul, mul_comm]

/-- A fraction somewhat below the ratio of the logarithms serves where the powers are great. -/
theorem ten_le_two {g bits : ℤ} (hbits : 0 ≤ bits) (h : 103 * g ≤ 31 * bits) : (10 : ℚ) ^ g ≤ 2 ^ bits :=
  @ten_le_two_of_ratio g bits 103 31 (by decide) h (zpow_le_zpow_left₀ hbits (by positivity) (by norm_num))

/-- A fraction somewhat above that ratio serves where the powers are small. -/
theorem ten_le_two_of_neg {g bits : ℤ} (hbits : bits ≤ 0) (h : 93 * g ≤ 28 * bits) : (10 : ℚ) ^ g ≤ 2 ^ bits := by
  refine @ten_le_two_of_ratio g bits 93 28 (by decide) h ?_
  obtain ⟨j, rfl⟩ : ∃ j : ℕ, bits = -(j : ℤ) := ⟨bits.natAbs, by omega⟩
  rw [zpow_neg, zpow_neg, zpow_natCast, zpow_natCast]
  exact inv_anti₀ (by positivity) (pow_le_pow_left₀ (by norm_num) (by norm_num) j)

/-- How many bits the head of a double lies before the point. -/
def headBits (b : Binary) : ℤ := ((Target.ofBinary b).value.log2 : ℤ) - (Target.ofBinary b).denominator.log2

/-- The size of a double is at least the power of two of its first bit. -/
theorem two_pow_le_size (hm : 0 < b.mantissa) : (2 : ℚ) ^ headBits b ≤ b.size := by
  have hden : (Target.ofBinary b).denominator = 2 ^ (2 - b.exponent).toNat := rfl
  have hvalue : (Target.ofBinary b).value ≠ 0 := by
    show 4 * b.mantissa * 2 ^ (b.exponent - 2).toNat ≠ 0
    positivity
  have hlog : (2 : ℚ) ^ (Target.ofBinary b).value.log2 ≤ (Target.ofBinary b).value := by
    exact_mod_cast Nat.log2_self_le hvalue
  unfold headBits
  rw [← value_eq, hden, Nat.log2_two_pow, zpow_sub₀ two_ne_zero, zpow_natCast, zpow_natCast, Nat.cast_pow,
    Nat.cast_ofNat]
  exact div_le_div_of_nonneg_right hlog (by positivity)

/-- The size of a double is below the power of two after its first bit. -/
theorem size_lt_two_pow (b : Binary) : b.size < (2 : ℚ) ^ (headBits b + 1) := by
  have hden : (Target.ofBinary b).denominator = 2 ^ (2 - b.exponent).toNat := rfl
  have hlog : ((Target.ofBinary b).value : ℚ) < 2 ^ ((Target.ofBinary b).value.log2 + 1) := by
    exact_mod_cast Nat.lt_log2_self
  have hbits : headBits b + 1 = (((Target.ofBinary b).value.log2 + 1 : ℕ) : ℤ) - ((2 - b.exponent).toNat : ℤ) := by
    unfold headBits
    rw [hden, Nat.log2_two_pow]
    omega
  rw [hbits, ← value_eq, hden, zpow_sub₀ two_ne_zero, zpow_natCast, zpow_natCast, Nat.cast_pow, Nat.cast_ofNat]
  exact div_lt_div_of_pos_right hlog (by positivity)

/-- The head of a double is within the range of doubles. -/
theorem headBits_bounds (hb : b.Regular) : -1075 ≤ headBits b ∧ headBits b ≤ 1024 := by
  have hm : (1 : ℚ) ≤ b.mantissa := by exact_mod_cast hb.pos
  have hlt : (b.mantissa : ℚ) < 2 ^ (53 : ℤ) := by exact_mod_cast hb.lt
  have hplace : (0 : ℚ) < 2 ^ b.exponent := zpow_pos two_pos _
  have hlow : (2 : ℚ) ^ b.exponent ≤ b.size := le_mul_of_one_le_left hplace.le hm
  have hhigh : b.size < (2 : ℚ) ^ (53 + b.exponent) := by
    rw [zpow_add₀ two_ne_zero]
    exact mul_lt_mul_of_pos_right hlt hplace
  have h1 := (zpow_lt_zpow_iff_right₀ one_lt_two).1 (hlow.trans_lt (size_lt_two_pow b))
  have h2 := (zpow_lt_zpow_iff_right₀ one_lt_two).1 ((two_pow_le_size hb.pos).trans_lt hhigh)
  have := hb.low
  have := hb.high
  omega

/-- **The leading digit is not set too high.** -/
theorem ten_pow_leading_le (hb : b.Regular) : (10 : ℚ) ^ (Target.ofBinary b).leading ≤ b.size := by
  have hbits := headBits_bounds hb
  have hguess : (10 : ℚ) ^ (headBits b * 30103 / 100000 - 1) ≤ b.size := by
    refine le_trans ?_ (two_pow_le_size hb.pos)
    by_cases hneg : headBits b ≤ 0
    · exact ten_le_two_of_neg hneg (by omega)
    · exact ten_le_two (by omega) (by omega)
  -- the guess is moved up as long as the power of ten is reached
  unfold Target.leading
  dsimp only
  split
  next h => exact reaches_iff _ |>.1 (of_decide_eq_true h)
  next =>
    split
    next h => exact reaches_iff _ |>.1 (of_decide_eq_true h)
    next => exact hguess

/-! ## §5. The digits -/

/-- Seventeen digits are enough. -/
theorem ten_pow_lt_interval (hb : b.Regular) :
    (10 : ℚ) ^ ((Target.ofBinary b).leading - 17 + 1) < (1 / 2 + b.lowGap) * 2 ^ b.exponent := by
  have hplace : (0 : ℚ) < 2 ^ b.exponent := zpow_pos two_pos _
  have hunit : (10 : ℚ) ^ ((Target.ofBinary b).leading - 17 + 1) * 10 ^ 16 ≤ b.mantissa * 2 ^ b.exponent := by
    have h := ten_pow_leading_le hb
    rw [show (Target.ofBinary b).leading = ((Target.ofBinary b).leading - 17 + 1) + (16 : ℕ) by push_cast; ring,
      zpow_add₀ (by norm_num), zpow_natCast] at h
    exact h
  -- the mantissa is below 10 ^ 16 places of half a unit, and at a power of two below three quarters of them
  have hmantissa : (b.mantissa : ℚ) < (1 / 2 + b.lowGap) * 10 ^ 16 := by
    unfold Binary.lowGap
    split
    case isTrue h =>
      rw [h.1]
      norm_num
    case isFalse =>
      have : (b.mantissa : ℚ) < 2 ^ 53 := by exact_mod_cast hb.lt
      linarith
  have h1 := hunit.trans_lt (mul_lt_mul_of_pos_right hmantissa hplace)
  rw [mul_right_comm] at h1
  exact lt_of_mul_lt_mul_right h1 (by positivity)

/-- Zeros that are dropped from the end are counted. -/
theorem dropZeros_eq (bound n : ℕ) : (dropZeros bound n).1 * 10 ^ (dropZeros bound n).2 = n := by
  induction bound generalizing n with
  | zero => exact Nat.mul_one n
  | succ bound ih =>
    unfold dropZeros
    split
    case isTrue h =>
      show (dropZeros bound (n / 10)).1 * 10 ^ ((dropZeros bound (n / 10)).2 + 1) = n
      rw [Nat.pow_succ, ← Nat.mul_assoc, ih]
      omega
    case isFalse => exact Nat.mul_one n

/-- The points that are tried, with one digit more each time. -/
def candidate? (b : Binary) (count : ℕ) : Option (ℕ × ℤ) :=
  ((Target.ofBinary b).onGrid? ((Target.ofBinary b).leading - count + 1)).map
    (·, (Target.ofBinary b).leading - count + 1)

/-- One of them is found, and the zeros at its end are dropped. -/
theorem exists_digits (hb : b.Regular) : ∃ n k, (Target.ofBinary b).contains n k = true ∧
    digits b = ((dropZeros 20 n).1, k + (dropZeros 20 n).2) := by
  cases hfind : (List.range' 1 17).findSome? (candidate? b) with
  | none =>
    -- the last grid that is tried has a point in the interval
    exfalso
    obtain ⟨n, hn⟩ := exists_onGrid? hb.pos (ten_pow_lt_interval hb)
    have hnone := List.findSome?_eq_none_iff.1 hfind 17 (by decide)
    have hsome : candidate? b 17 = some (n, (Target.ofBinary b).leading - 17 + 1) := congrArg (Option.map _) hn
    rw [hnone] at hsome
    cases hsome
  | some found =>
    obtain ⟨n, k⟩ := found
    obtain ⟨count, -, hcount⟩ := List.exists_of_findSome?_eq_some hfind
    obtain ⟨m, hm, hpair⟩ := Option.map_eq_some_iff.1 hcount
    obtain ⟨rfl, rfl⟩ := Prod.mk.inj hpair
    refine ⟨m, _, contains_of_onGrid? hm, ?_⟩
    unfold candidate? at hfind
    unfold digits
    dsimp only
    rw [hfind]

/-- **The shortest digits read back**: the double covers them. -/
theorem digits_covers (hb : b.Regular) :
    0 < (digits b).1 ∧ b.Covers ((digits b).1 * 10 ^ (digits b).2 / 2 ^ b.exponent) := by
  obtain ⟨n, k, hcontains, hdigits⟩ := exists_digits hb
  have hdropped := dropZeros_eq 20 n
  have hcovers := covers_of_contains hb.pos hcontains
  have hvalue : ((digits b).1 : ℚ) * 10 ^ (digits b).2 = n * 10 ^ k := by
    have hcast : ((dropZeros 20 n).1 : ℚ) * 10 ^ (dropZeros 20 n).2 = n := by exact_mod_cast hdropped
    rw [hdigits]
    calc ((dropZeros 20 n).1 : ℚ) * 10 ^ (k + (dropZeros 20 n).2)
        = (dropZeros 20 n).1 * 10 ^ (dropZeros 20 n).2 * 10 ^ k := by
          rw [zpow_add₀ (by norm_num), zpow_natCast]
          ring
      _ = n * 10 ^ k := by rw [hcast]
  -- zero is too far below every double to be covered
  have hn : n ≠ 0 := by
    rintro rfl
    have hm : (1 : ℚ) ≤ b.mantissa := by exact_mod_cast hb.pos
    have h := hcovers.low
    rw [Nat.cast_zero, zero_mul, zero_div] at h
    linarith [b.lowGap_le]
  rw [hvalue]
  refine ⟨Nat.pos_of_ne_zero ?_, hcovers⟩
  intro hzero
  rw [hdigits] at hzero
  dsimp only at hzero
  rw [hzero, Nat.zero_mul] at hdropped
  exact hn hdropped.symm

end HomeWidget.Shortest
